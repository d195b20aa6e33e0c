/-
Runs that must come to an end.

Where each of a system's own steps lowers a measure, a run of own steps is no longer than the
measure was at its start, however the steps are chosen.  So whatever holds where no own step
is left comes to hold, and there is a bound on when.
-/
import Mathlib.Algebra.BigOperators.Group.Finset.Basic
import DonutServer.Lib.System

namespace System

variable {σ α : Type} {next : σ → α → Option σ} {own : α → Prop} {P : σ → Prop} {μ : σ → Nat}

/-- No own step can be taken. -/
def Stuck (next : σ → α → Option σ) (own : α → Prop) (s : σ) : Prop :=
  ∀ a, own a → next s a = none

/-- A run of own steps uses the measure up. -/
theorem follow_length
    (hstep : ∀ s a s', P s → own a → next s a = some s' → P s' ∧ μ s' < μ s) :
    ∀ (l : List α) {s s' : σ}, P s → (∀ a ∈ l, own a) → follow next l s = some s' →
      P s' ∧ l.length + μ s' ≤ μ s := by
  intro l
  induction l with
  | nil =>
      intro s s' hs _ h
      rw [← Option.some.inj h, List.length_nil, Nat.zero_add]
      exact ⟨hs, Nat.le_refl _⟩
  | cons a rest ih =>
      intro s s' hs hown h
      obtain ⟨ha, hrest⟩ := List.forall_mem_cons.mp hown
      obtain ⟨t, ht, hfollow⟩ := Option.bind_eq_some_iff.mp h
      obtain ⟨htP, hlt⟩ := hstep s a t hs ha ht
      obtain ⟨hs', hle⟩ := ih htP hrest hfollow
      refine ⟨hs', ?_⟩
      rw [List.length_cons]
      omega

/-! ### Sums of which one part changes

A measure is often a sum over parts of which a step changes one.  The sum after the step, together
with the old part, is then the sum before it with the new one.
-/

/-- One of the parts is another. -/
theorem sum_range_change {f g : Nat → Nat} {n i : Nat} (hi : i < n) (h : ∀ k, k ≠ i → g k = f k) :
    ∑ k ∈ Finset.range n, g k + f i = ∑ k ∈ Finset.range n, f k + g i := by
  have hmem : i ∈ Finset.range n := Finset.mem_range.mpr hi
  have hothers : ∑ k ∈ (Finset.range n).erase i, g k = ∑ k ∈ (Finset.range n).erase i, f k :=
    Finset.sum_congr rfl fun k hk => h k (Finset.ne_of_mem_erase hk)
  rw [← Finset.add_sum_erase _ f hmem, ← Finset.add_sum_erase _ g hmem, hothers,
    Nat.add_right_comm, Nat.add_comm (g i), Nat.add_right_comm]

end System
