/-
A value observed over time, and how long it has been seen not to change.

A timeline is a list of observations, the oldest first.  What it ends with has been seen
for just as long as the equal values at its end reach back: of two equal observations
further apart than that, some other value was seen in between.

Instants need not be different, and the observations of one instant count in their order.  What was
the case between two observations is not known; "seen" is all that is said.
-/
import Mathlib.Algebra.Order.Group.Defs
import Mathlib.Tactic.Common

/-- What was seen, and when. -/
structure Observation (α T : Type) where
  value : α
  time : T
  deriving DecidableEq

namespace Timeline

variable {α T : Type} [LinearOrder T]

/-- The instants come in order. -/
def InOrder (obs : List (Observation α T)) : Prop := obs.Pairwise fun o o' => o.time ≤ o'.time

variable {obs earlier later : List (Observation α T)} {first latest : Observation α T}

/-- Equal values that reach to the end begin no earlier than the last ones do. -/
theorem first_le (hsorted : InOrder obs) (hobs : obs = earlier ++ first :: later)
    (hchanged : ∀ o, earlier.getLast? = some o → o.value ≠ first.value)
    {earlier' later' : List (Observation α T)} {first' : Observation α T}
    (hobs' : obs = earlier' ++ first' :: later')
    (hsame' : ∀ o ∈ later', o.value = first'.value) : first.time ≤ first'.time := by
  rw [hobs] at hsorted hobs'
  have hfirst : ∀ o ∈ first :: later, first.time ≤ o.time := by
    intro o ho
    rcases List.mem_cons.mp ho with rfl | ho
    · exact le_refl _
    · exact (List.pairwise_cons.mp (List.pairwise_append.mp hsorted).2.1).1 o ho
  rcases List.append_eq_append_iff.mp hobs' with ⟨between, -, hback⟩ | ⟨between, hfront, hback⟩
  · exact hfirst first' (by rw [hback]; exact List.mem_append_right _ (List.mem_cons_self ..))
  · rcases List.eq_nil_or_concat between with rfl | ⟨before, o, rfl⟩
    · rw [List.nil_append] at hback
      rw [(List.cons.inj hback).1]
    · -- The value just before the last ones would be the same as theirs.
      have hlast : earlier.getLast? = some o := by
        rw [hfront, List.concat_eq_append, ← List.append_assoc, List.getLast?_concat]
      have hvalue : ∀ o' ∈ first' :: later', o'.value = first'.value :=
        List.forall_mem_cons.mpr ⟨rfl, hsame'⟩
      rw [hback] at hvalue
      have ho := hvalue o (by simp)
      have hf := hvalue first (by simp)
      exact absurd (ho.trans hf.symm) (hchanged o hlast)

variable [AddCommGroup T] {span : T}

/-- One value was seen at two instants at least `span` apart, with nothing else seen in
between, and the later one is the last instant of all. -/
def SteadyFor (span : T) (obs : List (Observation α T)) : Prop :=
  ∃ earlier first later latest, obs = earlier ++ first :: later ∧
    (first :: later).getLast? = some latest ∧ (∀ o ∈ later, o.value = first.value) ∧
    span ≤ latest.time - first.time

/-- The same, at some time or other. -/
def SteadyOnce (span : T) (obs : List (Observation α T)) : Prop :=
  ∃ seen, seen <+: obs ∧ SteadyFor span seen

/-- **How long the last value was seen**: from the first of the equal observations the
timeline ends with. -/
theorem steadyFor_iff [IsOrderedAddMonoid T] (hsorted : InOrder obs)
    (hobs : obs = earlier ++ first :: later) (hlatest : obs.getLast? = some latest)
    (hsame : ∀ o ∈ later, o.value = first.value)
    (hchanged : ∀ o, earlier.getLast? = some o → o.value ≠ first.value) :
    SteadyFor span obs ↔ span ≤ latest.time - first.time := by
  have hend : ∀ {earlier' later' : List (Observation α T)} {first' : Observation α T},
      obs = earlier' ++ first' :: later' → (first' :: later').getLast? = some latest := by
    intro earlier' later' first' hobs'
    rw [hobs', List.getLast?_append] at hlatest
    rwa [List.getLast?_cons] at hlatest ⊢
  constructor
  · intro h
    obtain ⟨earlier', first', later', latest', hobs', hlatest', hsame', hspan⟩ := h
    rw [hend hobs'] at hlatest'
    rw [← Option.some.inj hlatest'] at hspan
    exact hspan.trans (sub_le_sub_left (first_le hsorted hobs hchanged hobs' hsame') _)
  · intro hspan
    exact ⟨earlier, first, later, latest, hobs, hend hobs, hsame, hspan⟩

/-- Nothing is steady for longer than it was observed. -/
theorem SteadyOnce.le [IsOrderedAddMonoid T] (h : SteadyOnce span obs) {a b : T}
    (hobs : ∀ o ∈ obs, a ≤ o.time ∧ o.time ≤ b) : span ≤ b - a := by
  obtain ⟨seen, hseen, earlier, first, later, latest, rfl, hlatest, -, hspan⟩ := h
  have hfirst := hobs first (hseen.subset (List.mem_append_right _ (List.mem_cons_self ..)))
  have hlast := hobs latest
    (hseen.subset (List.mem_append_right _ (List.mem_of_getLast? hlatest)))
  exact hspan.trans (sub_le_sub hlast.2 hfirst.1)

end Timeline
