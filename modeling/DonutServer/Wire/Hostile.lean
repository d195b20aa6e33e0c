/-
The parser on bytes nobody vouches for.

Part count, name lengths, offsets, sizes and the payload length are all the sender's.
Whatever they say, a layout that comes back lies inside the payload the header declares
and inside the bytes received, and most of what can go wrong is a `ProtocolError`.  The
exception is a name that is not UTF-8: `bytes.decode` raises its own error.  Where the
descriptors stand depends on the name lengths alone, so which bodies meet that can be read
off the bytes: `NamesDecode`.
-/
import DonutServer.Protocol

namespace DonutServer

/-! ### Where the descriptors stand

A descriptor's length depends on the length it gives for its name, and on nothing else in it.  So
the places of all of them can be computed without looking at names, and the first name that does
not decode is found without parsing.
-/

/-- The length a descriptor gives for its name. -/
def nameLenAt (blob : Bytes) (pos : Nat) : Nat := beNat (slice blob pos 1)

/-- The name field of the descriptor at `pos`, as far as the blob reaches. -/
def nameField (blob : Bytes) (pos : Nat) : Bytes :=
  slice blob (pos + descFixedSize) (nameLenAt blob pos)

/-- Where the descriptor behind `i` others starts, the first of them at `pos`. -/
def descriptorPos (blob : Bytes) : Nat → Nat → Nat
  | pos, 0 => pos
  | pos, i + 1 => descriptorPos blob (pos + descFixedSize + nameLenAt blob pos) i

/-- A descriptor stands no earlier than the first one. -/
theorem le_descriptorPos (blob : Bytes) (i : Nat) : ∀ pos, pos ≤ descriptorPos blob pos i := by
  induction i with
  | zero =>
      intro pos
      exact Nat.le_refl _
  | succ i ih =>
      intro pos
      have := ih (pos + descFixedSize + nameLenAt blob pos)
      unfold descriptorPos
      omega

theorem nameLen_eq (blob : Bytes) (pos : Nat) :
    beNat (slice (slice blob pos descFixedSize) 0 1) = nameLenAt blob pos := by
  unfold nameLenAt slice
  rw [List.drop_zero, List.take_take]
  rfl

/-- One descriptor read, and what it comes to. -/
theorem parseDescriptors_succ (blob : Bytes) (count pos : Nat) :
    parseDescriptors blob (count + 1) pos =
      if pos + descFixedSize > blob.length then .error (.protocolError "truncated descriptor")
      else
        match String.fromUTF8? ⟨(nameField blob pos).toArray⟩ with
        | none => .error .unicodeDecodeError
        | some name =>
            match parseDescriptors blob count (descriptorPos blob pos 1) with
            | .error e => .error e
            | .ok (entries, dataStart) =>
                .ok (⟨name, beNat (slice (slice blob pos descFixedSize) 1 8),
                  beNat (slice (slice blob pos descFixedSize) 9 8)⟩ :: entries, dataStart) := by
  rw [parseDescriptors]
  dsimp only
  rw [nameLen_eq]
  rfl

/-- The part data starts behind the last descriptor. -/
theorem parseDescriptors_end {blob : Bytes} {count : Nat} :
    ∀ {pos : Nat} {entries : List Descriptor} {dataStart : Nat},
      parseDescriptors blob count pos = .ok (entries, dataStart) →
      dataStart = descriptorPos blob pos count := by
  induction count with
  | zero =>
      intro pos entries dataStart h
      exact (Prod.mk.inj (Except.ok.inj h)).2.symm
  | succ count ih =>
      intro pos entries dataStart h
      rw [parseDescriptors_succ] at h
      split at h
      · exact absurd h nofun
      · split at h
        · exact absurd h nofun
        · split at h
          · exact absurd h nofun
          · rename_i tail start htail
            rw [← (Prod.mk.inj (Except.ok.inj h)).2, ih htail]
            rfl

/-- A name field that does not decode. -/
def Undecodable (field : Bytes) : Prop := String.fromUTF8? ⟨field.toArray⟩ = none

instance (field : Bytes) : Decidable (Undecodable field) :=
  inferInstanceAs (Decidable (_ = none))

/-- **The walk over the descriptors fails on a name when it reaches one that does not
decode.** -/
theorem parseDescriptors_undecodable {blob : Bytes} {count : Nat} :
    ∀ pos, parseDescriptors blob count pos = .error .unicodeDecodeError ↔
      ∃ i < count, descriptorPos blob pos i + descFixedSize ≤ blob.length ∧
        Undecodable (nameField blob (descriptorPos blob pos i)) := by
  induction count with
  | zero =>
      intro pos
      constructor
      · intro h
        exact absurd h nofun
      · intro hc
        obtain ⟨i, hi, -⟩ := hc
        exact absurd hi (Nat.not_lt_zero i)
  | succ count ih =>
      intro pos
      rw [parseDescriptors_succ]
      by_cases htruncated : pos + descFixedSize > blob.length
      · rw [if_pos htruncated]
        constructor
        · intro h
          exact absurd h nofun
        · intro hc
          obtain ⟨i, -, hroom, -⟩ := hc
          have := le_descriptorPos blob i pos
          omega
      · rw [if_neg htruncated]
        cases hname : String.fromUTF8? ⟨(nameField blob pos).toArray⟩ with
        | none => exact ⟨fun _ => ⟨0, Nat.succ_pos _, by unfold descriptorPos; omega, hname⟩,
            fun _ => rfl⟩
        | some name =>
            have htail := ih (descriptorPos blob pos 1)
            have hstep : parseDescriptors blob count (descriptorPos blob pos 1) =
                .error .unicodeDecodeError ↔ ∃ i < count + 1,
                  descriptorPos blob pos i + descFixedSize ≤ blob.length ∧
                    Undecodable (nameField blob (descriptorPos blob pos i)) := by
              rw [htail]
              constructor
              · intro hc
                obtain ⟨i, hi, hrest⟩ := hc
                exact ⟨i + 1, Nat.succ_lt_succ hi, hrest⟩
              · intro hc
                obtain ⟨i, hi, hroom, hbad⟩ := hc
                cases i with
                | zero =>
                    unfold Undecodable descriptorPos at hbad
                    rw [hname] at hbad
                    exact absurd hbad nofun
                | succ i => exact ⟨i, Nat.lt_of_succ_lt_succ hi, hroom, hbad⟩
            rw [← hstep]
            dsimp only
            cases parseDescriptors blob count (descriptorPos blob pos 1) with
            | error e => exact ⟨fun h => congrArg Except.error (Except.error.inj h),
                fun h => congrArg Except.error (Except.error.inj h)⟩
            | ok result => exact ⟨fun h => absurd h nofun, fun h => absurd h nofun⟩

/-! ### What comes back

A range is checked against the payload before it is returned, and the payload against the bytes.
So every layout is contained, whoever made the bytes; and whether a body fails with the parser's
own error can be told from its names.
-/

theorem placeParts_decoded {dataStart payloadEnd : Nat} {entries : List Descriptor} :
    placeParts dataStart payloadEnd entries ≠ .error .unicodeDecodeError := by
  induction entries with
  | nil => simp [placeParts]
  | cons d rest ih =>
      intro h
      rcases placeParts_cons dataStart payloadEnd d rest with ⟨-, tail, -, hok⟩ | ⟨e, he, hwhy⟩
      · exact absurd (hok.symm.trans h) (by simp)
      · obtain rfl := Except.error.inj (he.symm.trans h)
        rcases hwhy with ⟨message, hmessage⟩ | hrest
        · exact absurd hmessage (by simp)
        · exact ih hrest

theorem parseHeader_decoded {head : Bytes} : parseHeader head ≠ .error .unicodeDecodeError := by
  unfold parseHeader
  split
  · exact nofun
  · split
    · exact nofun
    · split
      · exact nofun
      · exact nofun

/-- Every part lies inside the payload that the header declares, and inside the bytes. -/
def Contained (blob : Bytes) (layout : List PartLayout) : Prop :=
  ∃ info, parseHeader (slice blob 0 headerSize) = .ok info ∧
    let dataStart := descriptorPos blob headerSize info.partCount
    ∀ part ∈ layout, dataStart ≤ part.offset ∧
      part.offset + part.byteCount ≤ dataStart + info.payloadLength ∧
      part.offset + part.byteCount ≤ blob.length

theorem parseLayout_contained {blob : Bytes} {layout : List PartLayout}
    (h : parseLayout blob = .ok layout) : Contained blob layout := by
  have hwithin := parseLayout_within h
  unfold parseLayout at h
  split at h
  · exact absurd h nofun
  · rename_i info hinfo
    split at h
    · exact absurd h nofun
    · rename_i entries dataStart hentries
      dsimp only at h
      split at h
      · exact absurd h nofun
      · refine ⟨info, hinfo, fun part hpart => ?_⟩
        rw [← parseDescriptors_end hentries]
        exact ⟨(placeParts_within h part hpart).1, (placeParts_within h part hpart).2,
          hwithin part hpart⟩

/-- Every name the descriptors have inside the blob decodes, if the header is accepted. -/
def NamesDecode (blob : Bytes) : Prop :=
  ∀ info, parseHeader (slice blob 0 headerSize) = .ok info → ∀ i < info.partCount,
    descriptorPos blob headerSize i + descFixedSize ≤ blob.length →
      ¬Undecodable (nameField blob (descriptorPos blob headerSize i))

/-- **`bytes.decode`'s own error comes out of `parse_layout` for a name that does not
decode, and for nothing else.** -/
theorem parseLayout_undecodable (blob : Bytes) :
    parseLayout blob = .error .unicodeDecodeError ↔ ¬NamesDecode blob := by
  unfold parseLayout NamesDecode
  cases hinfo : parseHeader (slice blob 0 headerSize) with
  | error e =>
      constructor
      · intro h
        rw [Except.error.inj h] at hinfo
        exact absurd hinfo parseHeader_decoded
      · intro h
        exact absurd (fun info hok => absurd hok nofun) h
  | ok info =>
      have hwalk : parseDescriptors blob info.partCount headerSize = .error .unicodeDecodeError ↔
          _ := parseDescriptors_undecodable headerSize
      constructor
      · intro h hnames
        dsimp only at h
        cases hentries : parseDescriptors blob info.partCount headerSize with
        | error e =>
            rw [hentries] at h
            have he : e = .unicodeDecodeError := Except.error.inj h
            obtain ⟨i, hi, hroom, hbad⟩ := hwalk.mp (hentries.trans (congrArg Except.error he))
            exact hnames info rfl i hi hroom hbad
        | ok result =>
            rw [hentries] at h
            dsimp only at h
            split at h
            · exact absurd h nofun
            · exact absurd h placeParts_decoded
      · intro h
        have hbad : parseDescriptors blob info.partCount headerSize =
            .error .unicodeDecodeError := by
          by_contra hne
          refine h fun info' hok i hi hroom hbad => hne (hwalk.mpr ?_)
          obtain rfl := Except.ok.inj hok
          exact ⟨i, hi, hroom, hbad⟩
        dsimp only
        rw [hbad]

/-- What is asked of `parse_layout`: a layout inside the payload and the bytes, or the
module's own error. -/
def ParsesSafely (blob : Bytes) : Prop :=
  (∃ layout, parseLayout blob = .ok layout ∧ Contained blob layout) ∨
    ∃ message, parseLayout blob = .error (.protocolError message)

/-- A body is parsed safely just when its names decode. -/
theorem parsesSafely_iff (blob : Bytes) : ParsesSafely blob ↔ NamesDecode blob := by
  rw [← not_iff_not, ← parseLayout_undecodable]
  unfold ParsesSafely
  constructor
  · intro h
    cases hparse : parseLayout blob with
    | ok layout => exact absurd (Or.inl ⟨layout, hparse, parseLayout_contained hparse⟩) h
    | error e =>
        cases e with
        | protocolError message => exact absurd (Or.inr ⟨message, hparse⟩) h
        | unicodeDecodeError => rfl
  · intro h hc
    rcases hc with ⟨layout, hok, -⟩ | ⟨message, herror⟩
    · exact absurd (h.symm.trans hok) nofun
    · exact absurd (h.symm.trans herror) nofun

end DonutServer
