/-
What packs is within the format.

The packer and the framing refuse exactly what the format cannot express, so a blob that
was built needs no further assumption about its parts.  And the size the descriptors will
have can be had from the names alone, in any order.
-/
import DonutServer.Wire.InPlace

namespace DonutServer

open PyText

/-! ### Refusals

The format has fields of fixed width for the number of parts, for the length of a name, for an
offset and for a size.  A number that does not fit is refused when the field is packed; so whatever
was packed was within the limits.
-/

/-- A descriptor that is packed fits its fields. -/
theorem packDescriptor_ok {d : Descriptor} {descriptor : Bytes}
    (h : packDescriptor d.name d.offset d.byteCount = .ok descriptor) : d.Fits := by
  unfold packDescriptor at h
  by_cases hname : 255 < (nameBytes d.name).length
  · rw [if_pos hname] at h
    exact absurd h nofun
  · rw [if_neg hname] at h
    by_cases hrange : d.offset < 2 ^ 64 ∧ d.byteCount < 2 ^ 64
    · exact ⟨Nat.not_lt.mp hname, hrange.1, hrange.2⟩
    · rw [if_neg hrange] at h
      exact absurd h nofun

/-- So do all of them. -/
theorem packDescriptors_ok {placed : List Descriptor} {descriptors : Bytes}
    (h : packDescriptors placed = .ok descriptors) : ∀ d ∈ placed, d.Fits := by
  induction placed generalizing descriptors with
  | nil =>
      intro d hd
      exact absurd hd List.not_mem_nil
  | cons head rest ih =>
      unfold packDescriptors at h
      cases hhead : packDescriptor head.name head.offset head.byteCount with
      | error e =>
          rw [hhead] at h
          exact absurd h (by simp)
      | ok descriptor =>
          rw [hhead] at h
          cases hrest : packDescriptors rest with
          | error e =>
              rw [hrest] at h
              exact absurd h (by simp)
          | ok others =>
              intro d hd
              rcases List.mem_cons.mp hd with rfl | hmem
              · exact packDescriptor_ok hhead
              · exact ih hrest d hmem

/-- And so does the header. -/
theorem packHeader_ok {partCount payloadLength : Nat} {header : Bytes}
    (h : packHeader partCount payloadLength = .ok header) :
    partCount < 2 ^ 16 ∧ payloadLength < 2 ^ 64 := by
  unfold packHeader at h
  by_cases hfits : partCount < 2 ^ 16 ∧ payloadLength < 2 ^ 64
  · exact hfits
  · rw [if_neg hfits] at h
    exact absurd h (by simp)

/-- **A map that packs is within the format.** -/
theorem withinFormat_of_packBlob {parts : OrderedDict String Bytes} {blob : Bytes}
    (h : packBlob parts = .ok blob) : WithinFormat parts := by
  unfold packBlob at h
  rw [packParts_eq] at h
  cases hdescriptors : packDescriptors (cursorOffsets 0 (partSizes parts.entries)).1 with
  | error e =>
      rw [hdescriptors] at h
      exact absurd h (by simp [Except.map])
  | ok descriptors =>
      rw [hdescriptors] at h
      dsimp only [Except.map] at h
      cases hheader : packHeader parts.size (0 + (payloadBytes parts.entries).length) with
      | error e =>
          rw [hheader] at h
          exact absurd h (by simp)
      | ok header =>
          obtain ⟨hcount, htotal⟩ := packHeader_ok hheader
          refine ⟨by omega, ?_, by omega⟩
          intro name hname
          have hmem : name ∈ (inOrder parts.entries).map Descriptor.name := by
            have hsizes := congrArg (List.map Prod.fst)
              (cursorOffsets_sizes (partSizes parts.entries) 0)
            unfold partSizes at hsizes
            rw [List.map_map, List.map_map] at hsizes
            exact hsizes ▸ hname
          obtain ⟨d, hd, rfl⟩ := List.mem_map.mp hmem
          exact (packDescriptors_ok hdescriptors d hd).name

/-- Offsets that a framing can be built for, at which no two parts share a byte. -/
theorem pinned_of_buildFraming {parts : OrderedDict String Bytes}
    {offsets : OrderedDict String Nat} {f : Framing}
    (hnonempty : parts.entries ≠ []) (hgiven : ∀ name ∈ parts.keys, name ∈ offsets.keys)
    (hapart : parts.entries.Pairwise fun p q =>
      Buffer.Clear (pinnedAt offsets p.1) p.2.length (pinnedAt offsets q.1) q.2.length)
    (h : buildFraming (sizesOf parts) (some offsets) = .ok f) : Pinned parts offsets := by
  have hplaced : pinnedOffsets offsets (partSizes parts.entries) =
      placedAt (pinnedAt offsets) parts.entries :=
    pinnedOffsets_given fun part hpart => hgiven part.1 (List.mem_map.mpr ⟨part, hpart, rfl⟩)
  have hframe : framePlaced (placedAt (pinnedAt offsets) parts.entries)
      (payloadCover (placedAt (pinnedAt offsets) parts.entries)) = .ok f := by
    unfold buildFraming at h
    dsimp only at h
    split at h
    · exact absurd h (by simp)
    · split at h
      · exact absurd h (by simp)
      · rw [← hplaced]
        exact h
  unfold framePlaced at hframe
  cases hdescriptors : packDescriptors (placedAt (pinnedAt offsets) parts.entries) with
  | error e =>
      rw [hdescriptors] at hframe
      exact absurd hframe (by simp)
  | ok descriptors =>
      rw [hdescriptors] at hframe
      dsimp only at hframe
      cases hheader : packHeader (placedAt (pinnedAt offsets) parts.entries).length
          (payloadCover (placedAt (pinnedAt offsets) parts.entries)) with
      | error e =>
          rw [hheader] at hframe
          exact absurd hframe (by simp)
      | ok header =>
          obtain ⟨hcount, hcover⟩ := packHeader_ok hheader
          have hfits := packDescriptors_ok hdescriptors
          have hmem : ∀ part ∈ parts.entries,
              (⟨part.1, pinnedAt offsets part.1, part.2.length⟩ : Descriptor) ∈
                placedAt (pinnedAt offsets) parts.entries :=
            fun part hpart => List.mem_map.mpr ⟨part, hpart, rfl⟩
          refine ⟨hnonempty, ?_, ?_, hgiven, ?_, hapart⟩
          · unfold placedAt at hcount
            rw [List.length_map] at hcount
            unfold OrderedDict.size
            omega
          · intro name hname
            obtain ⟨part, hpart, rfl⟩ := List.mem_map.mp hname
            exact (hfits _ (hmem part hpart)).name
          · intro part hpart
            exact Nat.lt_of_le_of_lt (le_payloadCover (hmem part hpart)) hcover

/-! ### The descriptors' size

It is the sum over the names, which does not go by their order.  That is what lets a producer place
its images before there is a framing.
-/

/-- Bytes one descriptor occupies. -/
def descriptorSize (name : String) : Nat := descFixedSize + (nameBytes name).length

theorem descriptorRegionSize_ok {names : List String} {size : Nat} :
    descriptorRegionSize names = .ok size ↔
      (∀ name ∈ names, (nameBytes name).length ≤ 255) ∧
        size = (names.map descriptorSize).sum := by
  induction names generalizing size with
  | nil =>
      unfold descriptorRegionSize
      rw [Except.ok.injEq]
      exact ⟨fun h => ⟨fun name hname => absurd hname List.not_mem_nil, h.symm⟩,
        fun h => h.2.symm⟩
  | cons name rest ih =>
      unfold descriptorRegionSize
      by_cases hname : 255 < (nameBytes name).length
      · rw [if_pos hname]
        exact ⟨nofun, fun h => absurd (h.1 name (List.mem_cons_self ..)) (Nat.not_le.mpr hname)⟩
      · rw [if_neg hname]
        cases hrest : descriptorRegionSize rest with
        | error e =>
            refine ⟨nofun, fun h => ?_⟩
            have hok : descriptorRegionSize rest = .ok (rest.map descriptorSize).sum :=
              ih.mpr ⟨fun name hmem => h.1 name (List.mem_cons_of_mem _ hmem), rfl⟩
            rw [hrest] at hok
            exact absurd hok nofun
        | ok total =>
            obtain ⟨hnames, htotal⟩ := ih.mp hrest
            dsimp only
            rw [Except.ok.injEq, List.map_cons, List.sum_cons, List.forall_mem_cons, ← htotal]
            refine ⟨fun h => ⟨⟨by omega, hnames⟩, h.symm⟩, fun h => h.2.symm⟩

/-- Where the payload starts, from the names alone. -/
theorem length_framing {off : String → Nat} {parts : List (String × Bytes)}
    {payloadLength size : Nat} {names : List String}
    (hperm : names.Perm (parts.map Prod.fst)) (h : descriptorRegionSize names = .ok size) :
    (framingBytes (placedAt off parts) payloadLength).length = headerSize + size := by
  have hbytes : ∀ d : Descriptor, d.bytes.length = descriptorSize d.name := by
    intro d
    unfold Descriptor.bytes
    rw [List.length_append, Descriptor.length_fixedBytes]
    rfl
  have hsum : ((placedAt off parts).flatMap Descriptor.bytes).length =
      ((parts.map Prod.fst).map descriptorSize).sum := by
    unfold placedAt
    rw [List.length_flatMap, List.map_map, List.map_map]
    exact congrArg List.sum (List.map_congr_left fun part _ => hbytes _)
  rw [length_framingBytes, hsum, (descriptorRegionSize_ok.mp h).2]
  exact congrArg (headerSize + ·) (hperm.map descriptorSize).sum_nat.symm

end DonutServer
