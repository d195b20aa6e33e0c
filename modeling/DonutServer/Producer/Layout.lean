/-
Parts placed one behind the other.

`layParts` gives every part the range right behind the one before, and what was placed
stays where it is when more is placed: the images keep their slots when the metadata goes
in behind them.

It is used twice, for the parts of a blob and for the slots of an ingest, which differ in what
comes first.
-/
import DonutServer.Producer.Slots

namespace DonutServer.Producer

variable {κ : Type} [DecidableEq κ]

/-- What has been placed: these parts, in this order, with no overlap. -/
structure Laid.Holds (laid : Laid κ) (parts : List (κ × Nat)) : Prop where
  sizes : laid.sizes.entries = parts
  given : laid.offsets.keys = parts.map Prod.fst
  ordered : parts.Pairwise fun p q => laid.offsetOf p.1 + p.2 ≤ laid.offsetOf q.1
  within : ∀ p ∈ parts, laid.offsetOf p.1 + p.2 ≤ laid.cursor
  total : laid.cursor = (parts.map Prod.snd).sum

theorem Laid.nothing_holds : (Laid.nothing κ).Holds [] :=
  ⟨rfl, rfl, List.Pairwise.nil, fun _ hp => absurd hp List.not_mem_nil, rfl⟩

/-- `layParts` with one part. -/
def Laid.place (laid : Laid κ) (part : κ) (size : Nat) : Laid κ :=
  ⟨laid.sizes.set part size, laid.offsets.set part laid.cursor, laid.cursor + size⟩

namespace Laid

variable {laid : Laid κ} {parts : List (κ × Nat)}

theorem offsetOf_place (laid : Laid κ) (size : Nat) {part : κ}
    (hnew : part ∉ parts.map Prod.fst) :
    (laid.place part size).offsetOf part = laid.cursor ∧
      ∀ p ∈ parts, (laid.place part size).offsetOf p.1 = laid.offsetOf p.1 := by
  unfold Laid.offsetOf Laid.place
  dsimp only
  refine ⟨?_, ?_⟩
  · rw [OrderedDict.get?_set, if_pos rfl]
    rfl
  · intro p hp
    have hne : p.1 ≠ part := fun heq => hnew (heq ▸ List.mem_map.mpr ⟨p, hp, rfl⟩)
    rw [OrderedDict.get?_set, if_neg hne]

/-- One more part goes right behind the others. -/
theorem Holds.place (h : laid.Holds parts) (size : Nat) {part : κ}
    (hnew : part ∉ parts.map Prod.fst) :
    (laid.place part size).Holds (parts ++ [(part, size)]) := by
  obtain ⟨hlast, hkept⟩ := offsetOf_place laid size hnew
  have hsizes : part ∉ laid.sizes.keys := by
    unfold OrderedDict.keys
    rw [h.sizes]
    exact hnew
  have hoffsets : part ∉ laid.offsets.keys := by
    rw [h.given]
    exact hnew
  refine ⟨?_, ?_, ?_, ?_, ?_⟩
  · show (laid.sizes.set part size).entries = _
    rw [OrderedDict.entries_set_new hsizes, h.sizes]
  · show (laid.offsets.set part laid.cursor).entries.map Prod.fst = _
    rw [OrderedDict.entries_set_new hoffsets, List.map_append, List.map_append]
    exact congrArg (· ++ [part]) h.given
  · rw [List.pairwise_append]
    refine ⟨h.ordered.imp_of_mem ?_, List.pairwise_singleton _ _, ?_⟩
    · intro p q hp hq hle
      rw [hkept p hp, hkept q hq]
      exact hle
    · intro p hp q hq
      rw [List.mem_singleton.mp hq, hkept p hp, hlast]
      exact h.within p hp
  · intro p hp
    show _ ≤ laid.cursor + size
    rcases List.mem_append.mp hp with hold | hmem
    · have := h.within p hold
      rw [hkept p hold]
      omega
    · rw [List.mem_singleton.mp hmem, hlast]
  · show laid.cursor + size = _
    rw [List.map_append, List.sum_append_nat, h.total]
    rfl

end Laid

/-- **Parts placed behind the others**, which stay where they are. -/
theorem layParts_holds {parts : List (κ × Nat)} :
    ∀ {laid : Laid κ} {done : List (κ × Nat)}, laid.Holds done →
      ((done ++ parts).map Prod.fst).Nodup →
      (layParts laid parts).Holds (done ++ parts) ∧
        ∀ p ∈ done, (layParts laid parts).offsetOf p.1 = laid.offsetOf p.1 := by
  induction parts with
  | nil =>
      intro laid done h _
      unfold layParts
      rw [List.append_nil]
      exact ⟨h, fun _ _ => rfl⟩
  | cons part rest ih =>
      intro laid done h hnodup
      have hnew : part.1 ∉ done.map Prod.fst := by
        intro hmem
        rw [List.map_append] at hnodup
        exact (List.nodup_append.mp hnodup).2.2 part.1 hmem part.1 (List.mem_cons_self ..) rfl
      have hassoc : done ++ part :: rest = done ++ [part] ++ rest := by
        rw [List.append_assoc, List.singleton_append]
      obtain ⟨hholds, hkept⟩ := ih (h.place part.2 hnew) (hassoc ▸ hnodup)
      rw [hassoc]
      refine ⟨hholds, ?_⟩
      intro p hp
      have hstays := (Laid.offsetOf_place laid part.2 hnew).2 p hp
      exact (hkept p (List.mem_append_left _ hp)).trans hstays

/-- The ranges of placed parts share no position. -/
theorem Laid.Holds.apart {laid : Laid κ} {parts : List (κ × Nat)} (h : laid.Holds parts) :
    parts.Pairwise fun p q =>
      Buffer.Clear (laid.offsetOf p.1) p.2 (laid.offsetOf q.1) q.2 :=
  h.ordered.imp fun hle => Buffer.clear_of_le hle

end DonutServer.Producer
