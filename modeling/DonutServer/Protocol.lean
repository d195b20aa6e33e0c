/-
The wire format of a push, and the parser that reads it.

A blob is a fixed header, one descriptor for each part, and the parts' bytes.  The
server never copies the parts out: `parseLayout` reads the framing alone and says
where each part sits, as an absolute range of the blob.  What the rest of the
development needs is that a layout it returns never points past the bytes it was
given, whatever those bytes are, which is `parseLayout_within`.
-/
import Mathlib.Tactic.Common
import DonutServer.Lib.PyText

namespace DonutServer

open PyText

abbrev Bytes := List UInt8

/-- `blob[start : start + count]`, clipped to the blob as a Python slice is. -/
def slice (blob : Bytes) (start count : Nat) : Bytes := (blob.drop start).take count

/-- An unsigned big-endian field. -/
def beNat (field : Bytes) : Nat := field.foldl (fun n b => n * 256 + b.toNat) 0

/-- `MAGIC`. -/
def magic : Bytes := [68, 87, 70, 83]

/-- `VERSION`. -/
def version : Nat := 2

/-- `HEADER_SIZE`. -/
def headerSize : Nat := 16

/-- `_DESC_FIXED_SIZE`. -/
def descFixedSize : Nat := 17

/-- What the parser raises.  The second is `bytes.decode`'s own exception, which is
not a `ProtocolError`. -/
inductive ParseError
  | protocolError (message : String)
  | unicodeDecodeError
  deriving DecidableEq, Repr

structure HeaderInfo where
  version : Nat
  partCount : Nat
  payloadLength : Nat
  deriving DecidableEq, Repr

/-- Where one part sits, as an absolute offset from the start of the blob. -/
structure PartLayout where
  name : String
  offset : Nat
  byteCount : Nat
  deriving DecidableEq, Repr

/-- Decode just the fixed header. -/
def parseHeader (head : Bytes) : Except ParseError HeaderInfo :=
  if head.length < headerSize then
    .error (.protocolError
      s!"prefix too short for header: got {head.length}, need {headerSize}")
  else if slice head 0 4 ≠ magic then
    .error (.protocolError s!"bad magic: {reprBytes (slice head 0 4)}")
  else if beNat (slice head 4 2) ≠ version then
    .error (.protocolError s!"unsupported version: {beNat (slice head 4 2)}")
  else
    .ok
      { version := beNat (slice head 4 2)
        partCount := beNat (slice head 6 2)
        payloadLength := beNat (slice head 8 8) }

/-- One descriptor: a part's name, its offset into the payload and its size. -/
structure Descriptor where
  name : String
  offset : Nat
  byteCount : Nat
  deriving DecidableEq, Repr

/-- Read `count` descriptors from `pos` on, and say where the last one ended. -/
def parseDescriptors (blob : Bytes) : Nat → Nat → Except ParseError (List Descriptor × Nat)
  | 0, pos => .ok ([], pos)
  | count + 1, pos =>
      if pos + descFixedSize > blob.length then
        .error (.protocolError "truncated descriptor")
      else
        let fixed := slice blob pos descFixedSize
        let nameLen := beNat (slice fixed 0 1)
        match String.fromUTF8? ⟨(slice blob (pos + descFixedSize) nameLen).toArray⟩ with
        | none => .error .unicodeDecodeError
        | some name =>
            match parseDescriptors blob count (pos + descFixedSize + nameLen) with
            | .error e => .error e
            | .ok (entries, dataStart) =>
                .ok (⟨name, beNat (slice fixed 1 8), beNat (slice fixed 9 8)⟩ :: entries, dataStart)

/-- Turn each descriptor into an absolute range, refusing one that leaves the payload. -/
def placeParts (dataStart payloadEnd : Nat) : List Descriptor → Except ParseError (List PartLayout)
  | [] => .ok []
  | d :: rest =>
      let start := dataStart + d.offset
      if start + d.byteCount > payloadEnd then
        .error (.protocolError s!"descriptor for {reprText d.name} exceeds payload_length")
      else
        match placeParts dataStart payloadEnd rest with
        | .error e => .error e
        | .ok layout => .ok (⟨d.name, start, d.byteCount⟩ :: layout)

/-- Parse the framing only, copying no payload bytes. -/
def parseLayout (blob : Bytes) : Except ParseError (List PartLayout) :=
  match parseHeader (slice blob 0 headerSize) with
  | .error e => .error e
  | .ok info =>
      match parseDescriptors blob info.partCount headerSize with
      | .error e => .error e
      | .ok (entries, dataStart) =>
          let payloadEnd := dataStart + info.payloadLength
          if payloadEnd > blob.length then
            .error (.protocolError
              s!"blob too short: expected {payloadEnd} bytes, got {blob.length}")
          else
            placeParts dataStart payloadEnd entries

/-! ### A layout stays inside the bytes it was read from

Each part is checked against the payload when it is placed, and the payload against the length of
the blob before that.  So the bound needs no assumption on who wrote the bytes.
-/

/-- Placing one part more: it fits, or it is refused, or one behind it is. -/
theorem placeParts_cons (dataStart payloadEnd : Nat) (d : Descriptor) (rest : List Descriptor) :
    (dataStart + d.offset + d.byteCount ≤ payloadEnd ∧
        ∃ tail, placeParts dataStart payloadEnd rest = .ok tail ∧
          placeParts dataStart payloadEnd (d :: rest) =
            .ok (⟨d.name, dataStart + d.offset, d.byteCount⟩ :: tail)) ∨
      ∃ e, placeParts dataStart payloadEnd (d :: rest) = .error e ∧
        ((∃ message, e = .protocolError message) ∨
          placeParts dataStart payloadEnd rest = .error e) := by
  by_cases hfits : dataStart + d.offset + d.byteCount > payloadEnd
  · exact Or.inr ⟨_, if_pos hfits, Or.inl ⟨_, rfl⟩⟩
  · cases htail : placeParts dataStart payloadEnd rest with
    | error e =>
        refine Or.inr ⟨e, ?_, Or.inr rfl⟩
        simp only [placeParts]
        rw [if_neg hfits, htail]
    | ok tail =>
        refine Or.inl ⟨Nat.le_of_not_lt hfits, tail, rfl, ?_⟩
        simp only [placeParts]
        rw [if_neg hfits, htail]

theorem placeParts_within {dataStart payloadEnd : Nat} :
    ∀ {entries : List Descriptor} {layout : List PartLayout},
      placeParts dataStart payloadEnd entries = .ok layout →
      ∀ part ∈ layout, dataStart ≤ part.offset ∧ part.offset + part.byteCount ≤ payloadEnd := by
  intro entries
  induction entries with
  | nil =>
      intro layout h part hpart
      obtain rfl : [] = layout := Except.ok.inj h
      exact absurd hpart List.not_mem_nil
  | cons d rest ih =>
      intro layout h part hpart
      rcases placeParts_cons dataStart payloadEnd d rest with ⟨hfits, tail, htail, hok⟩ | ⟨e, he, -⟩
      · obtain rfl := Except.ok.inj (hok.symm.trans h)
        rcases List.mem_cons.mp hpart with rfl | hrest
        · exact ⟨Nat.le_add_right _ _, hfits⟩
        · exact ih htail part hrest
      · exact absurd (he.symm.trans h) (by simp)

/-- Whatever the bytes, every range of a layout ends inside them. -/
theorem parseLayout_within {blob : Bytes} {layout : List PartLayout}
    (h : parseLayout blob = .ok layout) :
    ∀ part ∈ layout, part.offset + part.byteCount ≤ blob.length := by
  unfold parseLayout at h
  split at h
  · exact absurd h (by simp)
  · split at h
    · exact absurd h (by simp)
    · dsimp only at h
      split at h
      · exact absurd h (by simp)
      · rename_i hlen
        intro part hpart
        exact Nat.le_trans (placeParts_within h part hpart).2 (Nat.le_of_not_lt hlen)

end DonutServer
