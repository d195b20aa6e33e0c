/-
Parts written where they have to stand.

`buildFraming` without offsets is `packBlob` without the parts, failures included.  With
offsets pinned, the framing and the parts are pieces of one buffer that keep clear of each
other; they may be written in any order over anything, and `unpackBlob_pieces` says that
what is then read is the parts.
-/
import DonutServer.Wire.RoundTrip

namespace DonutServer

open PyText

/-- `{name: len(part)}` -/
def sizesOf (parts : OrderedDict String Bytes) : OrderedDict String Nat :=
  ⟨partSizes parts.entries, by
    unfold partSizes
    rw [List.map_map]
    exact parts.nodup⟩

/-! ### Nothing pinned

Without offsets the framing is what the packer writes before the parts, computed from sizes alone.
The two fail alike, since both refuse what the format cannot express and check nothing else.
-/

/-- **`build_framing`, then the parts, is `pack_blob`**: byte for byte, and failing alike. -/
theorem packBlob_eq_framing (parts : OrderedDict String Bytes) :
    packBlob parts =
      (buildFraming (sizesOf parts) none).map fun f => f.framing ++ payloadBytes parts.entries := by
  have hsizes : (sizesOf parts).entries = partSizes parts.entries := rfl
  have hcount : (cursorOffsets 0 (partSizes parts.entries)).1.length = parts.size :=
    length_inOrder parts.entries
  unfold packBlob buildFraming
  rw [packParts_eq, hsizes]
  dsimp only
  unfold framePlaced
  rw [cursorOffsets_end, hcount]
  cases packDescriptors (cursorOffsets 0 (partSizes parts.entries)).1 with
  | error e => rfl
  | ok descriptors =>
      dsimp only [Except.map]
      cases packHeader parts.size (0 + (payloadBytes parts.entries).length) with
      | error e => rfl
      | ok header => rfl

/-- Within the limits there is no failure. -/
theorem buildFraming_none {parts : OrderedDict String Bytes} (h : WithinFormat parts) :
    ∃ f, buildFraming (sizesOf parts) none = .ok f ∧
      packBlob parts = .ok (f.framing ++ payloadBytes parts.entries) := by
  have hpack := packBlob_fits h
  rw [packBlob_eq_framing] at hpack
  cases hf : buildFraming (sizesOf parts) none with
  | error e =>
      rw [hf] at hpack
      exact absurd hpack nofun
  | ok f =>
      refine ⟨f, rfl, ?_⟩
      rw [packBlob_eq_framing, hf]
      rfl

/-! ### Pieces of one buffer

A reader finds a piece wherever nothing was written over it afterwards.  The framing is one of the
pieces, so it too may be written at any time.
-/

/-- The parts, each at the offset chosen for its name. -/
def placedAt (off : String → Nat) (parts : List (String × Bytes)) : List Descriptor :=
  parts.map fun part => ⟨part.1, off part.1, part.2.length⟩

/-- Every part ends before the first byte behind them all. -/
theorem le_payloadCover {placed : List Descriptor} {d : Descriptor} (h : d ∈ placed) :
    d.offset + d.byteCount ≤ payloadCover placed := by
  induction placed with
  | nil => exact absurd h List.not_mem_nil
  | cons head rest ih =>
      unfold payloadCover
      rcases List.mem_cons.mp h with rfl | hrest
      · exact Nat.le_max_left _ _
      · exact Nat.le_trans (ih hrest) (Nat.le_max_right _ _)

theorem payloadCover_lt {placed : List Descriptor} {bound : Nat} (hpos : 0 < bound)
    (h : ∀ d ∈ placed, d.offset + d.byteCount < bound) : payloadCover placed < bound := by
  induction placed with
  | nil => exact hpos
  | cons head rest ih =>
      unfold payloadCover
      exact Nat.max_lt.mpr ⟨h head (List.mem_cons_self ..),
        ih fun d hd => h d (List.mem_cons_of_mem _ hd)⟩

/-- Parts placed within the limits are a framing the parser reads. -/
theorem framed_placedAt {off : String → Nat} {parts : OrderedDict String Bytes}
    (hcount : parts.size ≤ 65535) (hnames : ∀ name ∈ parts.keys, (nameBytes name).length ≤ 255)
    (hextents : ∀ part ∈ parts.entries, off part.1 + part.2.length < 2 ^ 64) :
    Framed (placedAt off parts.entries) (payloadCover (placedAt off parts.entries)) := by
  have hextent : ∀ d ∈ placedAt off parts.entries, d.offset + d.byteCount < 2 ^ 64 := by
    intro d hd
    obtain ⟨part, hpart, rfl⟩ := List.mem_map.mp hd
    exact hextents part hpart
  refine ⟨?_, payloadCover_lt (by decide) hextent, ?_, fun d hd => le_payloadCover hd⟩
  · unfold placedAt
    rw [List.length_map]
    unfold OrderedDict.size at hcount
    omega
  · intro d hd
    have hlt := hextent d hd
    obtain ⟨part, hpart, rfl⟩ := List.mem_map.mp hd
    exact ⟨hnames part.1 (List.mem_map.mpr ⟨part, hpart, rfl⟩), by omega, by omega⟩

/-- **What is read of pieces that keep clear of each other**, one of them the framing and
the others the parts, each where the framing says. -/
theorem unpackBlob_pieces {off : String → Nat} {parts : OrderedDict String Bytes}
    {payloadLength : Nat} {buffer : Bytes} {pieces : List (Nat × Bytes)}
    (hframed : Framed (placedAt off parts.entries) payloadLength)
    (hfits : Buffer.Fits buffer.length pieces) (hapart : Buffer.Apart pieces)
    (hframing : (0, framingBytes (placedAt off parts.entries) payloadLength) ∈ pieces)
    (hparts : ∀ part ∈ parts.entries,
      ((framingBytes (placedAt off parts.entries) payloadLength).length + off part.1, part.2) ∈
        pieces)
    (hlong : (framingBytes (placedAt off parts.entries) payloadLength).length + payloadLength ≤
      buffer.length) :
    unpackBlob ((Buffer.writeAll buffer pieces).take
      ((framingBytes (placedAt off parts.entries) payloadLength).length + payloadLength)) =
      .ok parts := by
  have hlength := Buffer.length_writeAll hfits
  have hread := Buffer.read_writeAll hfits hapart
  generalize hwritten : Buffer.writeAll buffer pieces = written at hlength hread ⊢
  have hpayload : ((written.drop
      (framingBytes (placedAt off parts.entries) payloadLength).length).take payloadLength).length =
      payloadLength := by
    rw [List.length_take, List.length_drop]
    omega
  -- the framing stands at the front, and the rest is the payload
  have hfront : written.take (framingBytes (placedAt off parts.entries) payloadLength).length =
      framingBytes (placedAt off parts.entries) payloadLength := hread _ hframing
  have hslices : (placedAt off parts.entries).map (fun d => (d.name, slice ((written.drop
      (framingBytes (placedAt off parts.entries) payloadLength).length).take payloadLength)
        d.offset d.byteCount)) = parts.entries := by
    have hpart : ∀ part ∈ parts.entries, (part.1, slice ((written.drop
        (framingBytes (placedAt off parts.entries) payloadLength).length).take payloadLength)
          (off part.1) part.2.length) = part := by
      intro part hmem
      have hcover : off part.1 + part.2.length ≤ payloadLength :=
        hframed.covered ⟨part.1, off part.1, part.2.length⟩ (List.mem_map.mpr ⟨part, hmem, rfl⟩)
      have hpiece := hread _ (hparts part hmem)
      unfold Buffer.read at hpiece
      unfold slice
      rw [List.drop_take, List.drop_drop, List.take_take,
        show min part.2.length (payloadLength - off part.1) = part.2.length by omega, hpiece]
    unfold placedAt at hpart ⊢
    rw [List.map_map]
    exact (List.map_congr_left hpart).trans (List.map_id _)
  rw [List.take_add, hfront, unpackBlob_framed hframed (Nat.le_of_eq hpayload.symm), hslices,
    OrderedDict.update_empty]

/-! ### Offsets pinned

Pinned offsets may leave gaps and need not be in order.  What is required is that no two parts
share a byte and that there is an offset for every part; the framing then says where each of them
has to stand.
-/

/-- The offset pinned for a part. -/
def pinnedAt (offsets : OrderedDict String Nat) (name : String) : Nat :=
  (offsets.get? name).getD 0

/-- Offsets for every part of a map within the limits, at which no two share a byte. -/
structure Pinned (parts : OrderedDict String Bytes) (offsets : OrderedDict String Nat) :
    Prop where
  nonempty : parts.entries ≠ []
  count : parts.size ≤ 65535
  names : ∀ name ∈ parts.keys, (nameBytes name).length ≤ 255
  given : ∀ name ∈ parts.keys, name ∈ offsets.keys
  extents : ∀ part ∈ parts.entries, pinnedAt offsets part.1 + part.2.length < 2 ^ 64
  apart : parts.entries.Pairwise fun p q =>
    Buffer.Clear (pinnedAt offsets p.1) p.2.length (pinnedAt offsets q.1) q.2.length

theorem pinnedOffsets_given {offsets : OrderedDict String Nat} {parts : List (String × Bytes)}
    (h : ∀ part ∈ parts, part.1 ∈ offsets.keys) :
    pinnedOffsets offsets (partSizes parts) = placedAt (pinnedAt offsets) parts := by
  have hsome : ∀ part ∈ parts, (offsets.get? part.1).map
      (fun offset => (⟨part.1, offset, part.2.length⟩ : Descriptor)) =
      some ⟨part.1, pinnedAt offsets part.1, part.2.length⟩ := by
    intro part hpart
    obtain ⟨offset, hget⟩ := Option.ne_none_iff_exists'.mp
      (OrderedDict.get?_ne_none.mpr (h part hpart))
    unfold pinnedAt
    rw [hget]
    rfl
  unfold pinnedOffsets partSizes placedAt
  rw [List.filterMap_map]
  exact (List.filterMap_congr hsome).trans (congrFun List.filterMap_eq_map' parts)

/-- Where the framing says the parts have to stand. -/
def Framing.pieces (f : Framing) (parts : List (String × Bytes)) : List (Nat × Bytes) :=
  parts.filterMap fun part => (f.absolute.get? part.1).map fun start => (start, part.2)

/-- **What `build_framing` returns for pinned offsets.** -/
theorem buildFraming_pinned {parts : OrderedDict String Bytes} {offsets : OrderedDict String Nat}
    (h : Pinned parts offsets) :
    let placed := placedAt (pinnedAt offsets) parts.entries
    let framing := framingBytes placed (payloadCover placed)
    ∃ f, buildFraming (sizesOf parts) (some offsets) = .ok f ∧ f.framing = framing ∧
      f.totalSize = framing.length + payloadCover placed ∧
      ∀ part ∈ parts.entries, f.absolute.get? part.1 =
        some (framing.length + pinnedAt offsets part.1) := by
  intro placed framing
  have hframed : Framed placed (payloadCover placed) :=
    framed_placedAt h.count h.names h.extents
  have hsizes : (sizesOf parts).entries = partSizes parts.entries := rfl
  have hkeys : (sizesOf parts).keys = parts.keys := by
    unfold OrderedDict.keys
    rw [hsizes]
    unfold partSizes
    rw [List.map_map]
    rfl
  have hmissing : (sizesOf parts).keys.filter (fun name => (offsets.get? name).isNone) = [] := by
    rw [hkeys, List.filter_eq_nil_iff]
    intro name hname hnone
    exact OrderedDict.get?_ne_none.mpr (h.given name hname) (Option.isNone_iff_eq_none.mp hnone)
  have hnonempty : partSizes parts.entries ≠ [] := by
    unfold partSizes
    rw [Ne, List.map_eq_nil_iff]
    exact h.nonempty
  have hplaced : pinnedOffsets offsets (partSizes parts.entries) = placed :=
    pinnedOffsets_given fun part hpart => h.given part.1 (List.mem_map.mpr ⟨part, hpart, rfl⟩)
  have hnames : (placed.map fun d => (d.name, framing.length + d.offset)).map Prod.fst =
      parts.keys := by
    rw [List.map_map]
    exact List.map_map
  refine ⟨⟨framing, OrderedDict.empty.update
      (placed.map fun d => (d.name, framing.length + d.offset)),
    framing.length + payloadCover placed⟩, ?_, rfl, rfl, ?_⟩
  · unfold buildFraming
    dsimp only
    rw [hmissing, if_neg (not_not.mpr rfl), hsizes, if_neg hnonempty, hplaced]
    unfold framePlaced
    rw [packDescriptors_fits hframed.fits]
    dsimp only
    rw [packHeader_fits hframed.count hframed.length]
    dsimp only
    rw [← length_framingBytes placed (payloadCover placed)]
    rfl
  · intro part hpart
    have hnodup : ((OrderedDict.empty : OrderedDict String Nat).keys ++
        (placed.map fun d => (d.name, framing.length + d.offset)).map Prod.fst).Nodup := by
      rw [hnames]
      exact parts.nodup
    rw [OrderedDict.get?_eq_some, OrderedDict.entries_update hnodup]
    exact List.mem_map.mpr ⟨⟨part.1, pinnedAt offsets part.1, part.2.length⟩,
      List.mem_map.mpr ⟨part, hpart, rfl⟩, rfl⟩

/-- The pieces of parts that are pinned: each behind the framing, at its offset. -/
theorem Pinned.pieces_eq {parts : OrderedDict String Bytes} {offsets : OrderedDict String Nat}
    (h : Pinned parts offsets) {f : Framing}
    (hf : buildFraming (sizesOf parts) (some offsets) = .ok f) {order : List (String × Bytes)}
    (horder : ∀ part ∈ order, part ∈ parts.entries) :
    f.pieces order = order.map fun part =>
      (f.framing.length + pinnedAt offsets part.1, part.2) := by
  obtain ⟨f', hf', hframing, -, habsolute⟩ := buildFraming_pinned h
  obtain rfl : f' = f := Except.ok.inj (hf'.symm.trans hf)
  have hsome : ∀ part ∈ order, (f'.absolute.get? part.1).map (fun start => (start, part.2)) =
      some (f'.framing.length + pinnedAt offsets part.1, part.2) := by
    intro part hpart
    rw [habsolute part (horder part hpart), hframing]
    rfl
  exact (List.filterMap_congr hsome).trans (congrFun List.filterMap_eq_map' order)

/-- **The framing and the parts, written in any order** over whatever the buffer held. -/
theorem Pinned.unpackBlob_written {parts : OrderedDict String Bytes}
    {offsets : OrderedDict String Nat} (h : Pinned parts offsets) {f : Framing}
    (hf : buildFraming (sizesOf parts) (some offsets) = .ok f) (buffer : Bytes)
    (pieces : List (Nat × Bytes)) (hroom : f.totalSize ≤ buffer.length)
    (hpieces : pieces.Perm ((0, f.framing) :: f.pieces parts.entries)) :
    ((Buffer.writeAll buffer pieces).take f.totalSize).length = f.totalSize ∧
      unpackBlob ((Buffer.writeAll buffer pieces).take f.totalSize) = .ok parts := by
  have heq := h.pieces_eq hf fun (part : String × Bytes) (hpart : part ∈ parts.entries) => hpart
  obtain ⟨f', hf', hframing, htotal, -⟩ := buildFraming_pinned h
  obtain rfl : f' = f := Except.ok.inj (hf'.symm.trans hf)
  have hframed : Framed (placedAt (pinnedAt offsets) parts.entries) _ :=
    framed_placedAt h.count h.names h.extents
  have hcover : ∀ part ∈ parts.entries, pinnedAt offsets part.1 + part.2.length ≤
      payloadCover (placedAt (pinnedAt offsets) parts.entries) := by
    intro part hpart
    exact hframed.covered ⟨part.1, pinnedAt offsets part.1, part.2.length⟩
      (List.mem_map.mpr ⟨part, hpart, rfl⟩)
  rw [htotal, ← hframing] at hroom
  rw [heq] at hpieces
  have hfits : Buffer.Fits buffer.length pieces := by
    intro piece hpiece
    rcases List.mem_cons.mp (hpieces.mem_iff.mp hpiece) with rfl | hpart
    · dsimp only
      omega
    · obtain ⟨part, hmem, rfl⟩ := List.mem_map.mp hpart
      have := hcover part hmem
      dsimp only
      omega
  have hapart : Buffer.Apart pieces := by
    refine Buffer.Apart.perm (List.pairwise_cons.mpr ⟨?_, ?_⟩) hpieces.symm
    · intro piece hpiece
      obtain ⟨part, -, rfl⟩ := List.mem_map.mp hpiece
      exact Buffer.clear_of_le (by dsimp only; omega)
    · rw [List.pairwise_map]
      refine h.apart.imp ?_
      intro p q hclear
      exact hclear.shift f'.framing.length
  have hlength := Buffer.length_writeAll hfits
  rw [htotal, ← hframing]
  refine ⟨?_, ?_⟩
  · rw [List.length_take, hlength]
    omega
  · have hread := unpackBlob_pieces hframed hfits hapart
      (hframing ▸ hpieces.mem_iff.mpr (List.mem_cons_self ..)) (fun part hpart => ?_)
      (hframing ▸ hroom)
    · rw [← hframing] at hread
      exact hread
    · rw [← hframing]
      exact hpieces.mem_iff.mpr
        (List.mem_cons_of_mem _ (List.mem_map.mpr ⟨part, hpart, rfl⟩))

/-- **Parts written in place are read back**: the framing first and then the parts in any
order. -/
theorem unpackBlob_pinned {parts : OrderedDict String Bytes} {offsets : OrderedDict String Nat}
    (h : Pinned parts offsets) :
    ∃ f, buildFraming (sizesOf parts) (some offsets) = .ok f ∧
      ∀ (buffer : Bytes) (order : List (String × Bytes)), f.totalSize ≤ buffer.length →
        order.Perm parts.entries →
        let written := Buffer.writeAll (Buffer.write buffer 0 f.framing) (f.pieces order)
        (written.take f.totalSize).length = f.totalSize ∧
          unpackBlob (written.take f.totalSize) = .ok parts := by
  obtain ⟨f, hf, -⟩ := buildFraming_pinned h
  refine ⟨f, hf, ?_⟩
  intro buffer order hroom horder
  exact h.unpackBlob_written hf buffer ((0, f.framing) :: f.pieces order) hroom
    (List.Perm.cons _ (horder.filterMap _))

end DonutServer
