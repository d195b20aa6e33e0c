/-
The greatest of the items that have a property, so many of them, the greatest first.

With fewer than `k` of them it is all there are.  That nothing is left out which would have come
before the last of those that are kept is the part that sorting and cutting has to be shown to do.
-/
import Mathlib.Data.List.Sort
import Mathlib.Order.Basic

variable {α : Type} [LinearOrder α]

/-- These are the `k` greatest items of a kind, or all of them, the greatest first. -/
structure Greatest (k : Nat) (S : α → Prop) (r : List α) : Prop where
  mem : ∀ a ∈ r, S a
  sorted : r.Pairwise fun a b => b < a
  few : r.length ≤ k
  rest : ∀ b, S b → b ∉ r → r.length = k ∧ ∀ a ∈ r, b < a

namespace Greatest

variable {k : Nat} {S T : α → Prop} {r l : List α}

/-- None of them is there twice. -/
theorem nodup (h : Greatest k S r) : r.Nodup := h.sorted.imp fun hlt => hlt.ne'

/-- The kind may be described differently. -/
theorem congr (h : Greatest k S r) (hST : ∀ a, S a ↔ T a) : Greatest k T r where
  mem a ha := (hST a).mp (h.mem a ha)
  sorted := h.sorted
  few := h.few
  rest b hb := h.rest b ((hST b).mpr hb)

/-- The greater of two stands before the other. -/
theorem pair_sublist {a b : α} (h : Greatest k S r) (ha : a ∈ r) (hb : b ∈ r) (hlt : b < a) :
    [a, b].Sublist r := by
  have hsorted := h.sorted
  clear h
  induction r with
  | nil => exact absurd ha List.not_mem_nil
  | cons first r ih =>
      obtain ⟨hfirst, hrest⟩ := List.pairwise_cons.mp hsorted
      rcases List.mem_cons.mp ha with rfl | hlater
      · have hb := (List.mem_cons.mp hb).resolve_left hlt.ne
        exact (List.singleton_sublist.mpr hb).cons_cons a
      · have hne : b ≠ first := by
          intro heq
          subst heq
          exact lt_asymm hlt (hfirst a hlater)
        exact (ih hlater ((List.mem_cons.mp hb).resolve_left hne) hrest).cons first

/-- Sorting a list downwards and cutting it finds them. -/
theorem take_insertionSort (hnodup : l.Nodup) (k : Nat) :
    Greatest k (· ∈ l) ((l.insertionSort (· ≥ ·)).take k) := by
  have hperm := l.perm_insertionSort (· ≥ ·)
  have hsorted : (l.insertionSort (· ≥ ·)).Pairwise fun a b => b < a := by
    refine ((l.pairwise_insertionSort (· ≥ ·)).and (hperm.nodup_iff.mpr hnodup)).imp ?_
    intro a b hab
    exact lt_of_le_of_ne hab.1 hab.2.symm
  generalize l.insertionSort (· ≥ ·) = sorted at hperm hsorted
  refine ⟨fun a ha => hperm.mem_iff.mp (List.mem_of_mem_take ha), hsorted.sublist
    (List.take_sublist k _), List.length_take_le k _, fun b hb hnot => ?_⟩
  have hcut := List.take_append_drop k sorted
  have hrest : b ∈ sorted.drop k := by
    have hmem := hperm.mem_iff.mpr hb
    rw [← hcut] at hmem
    exact (List.mem_append.mp hmem).resolve_left hnot
  constructor
  · have hlong := List.length_pos_of_mem hrest
    rw [List.length_drop] at hlong
    rw [List.length_take]
    omega
  · intro a ha
    rw [← hcut] at hsorted
    exact (List.pairwise_append.mp hsorted).2.2 a ha b hrest

end Greatest
