/-
Runs that never stop, and what they come to.

Some of a system's steps are its own; the others are taken around it.  A run is fair
if its own steps are not put off for ever while one can be taken.  Where every own step
lowers a rank and the other steps leave it alone, a fair run comes to rank zero and stays
there, provided that above zero an own step can be taken, sooner or later and from then on.
-/
import Mathlib.Data.Nat.Init
import DonutServer.Lib.System

variable {σ α : Type}

/-- An endless run whose `own` steps are not put off for ever. -/
structure FairRun (M : System σ α) (own : α → Prop) where
  state : Nat → σ
  label : Nat → α
  step : ∀ n, M.step (state n) (label n) (state (n + 1))
  fair : ∀ n, (∀ m, n ≤ m → ∃ a s, own a ∧ M.step (state m) a s) → ∃ m, n ≤ m ∧ own (label m)

namespace FairRun

variable {M : System σ α} {own : α → Prop}

/-! ### The rule

The proof is by strong induction on the rank.  Above zero an own step can be taken from some time
on, so by fairness one is taken; it lowers the rank, and no other step raises it.
-/

section Rule

variable (run : FairRun M own) {P : σ → Prop} {Rank : σ → Nat → Prop}

/-- What no step around the system changes holds until the next own step. -/
theorem until_own {n m : Nat} (hother : ∀ s a s', P s → ¬ own a → M.step s a s' → P s')
    (hn : P (run.state n)) (hle : n ≤ m) (hnone : ∀ i, n ≤ i → ¬ own (run.label i)) :
    P (run.state m) := by
  induction m, hle using Nat.le_induction with
  | base => exact hn
  | succ m hm ih => exact hother _ _ _ ih (hnone m hm) (run.step m)

/-- From there on the rank is no higher. -/
theorem ranked (hown : ∀ s a s' r, Rank s r → own a → M.step s a s' → ∃ r', r' < r ∧ Rank s' r')
    (hother : ∀ s a s' r, Rank s r → ¬ own a → M.step s a s' → Rank s' r) {n r : Nat}
    (hn : Rank (run.state n) r) {m : Nat} (hle : n ≤ m) :
    ∃ r', r' ≤ r ∧ Rank (run.state m) r' := by
  induction m, hle using Nat.le_induction with
  | base => exact ⟨r, Nat.le_refl r, hn⟩
  | succ m hm ih =>
      obtain ⟨r', hle', hr'⟩ := ih
      by_cases ho : own (run.label m)
      · obtain ⟨r'', hlt, hr''⟩ := hown _ _ _ _ hr' ho (run.step m)
        exact ⟨r'', by omega, hr''⟩
      · exact ⟨r', hle', hother _ _ _ _ hr' ho (run.step m)⟩

/-- **The ranking rule.**  A fair run comes to rank zero and stays there. -/
theorem settles (hown : ∀ s a s' r, Rank s r → own a → M.step s a s' → ∃ r', r' < r ∧ Rank s' r')
    (hother : ∀ s a s' r, Rank s r → ¬ own a → M.step s a s' → Rank s' r)
    (hgo : ∀ n r, Rank (run.state n) (r + 1) → ∃ m, n ≤ m ∧ own (run.label m)) :
    ∀ (r n : Nat), Rank (run.state n) r → ∃ N, ∀ m, N ≤ m → Rank (run.state m) 0 := by
  intro r
  induction r using Nat.strong_induction_on with
  | h r ih =>
      intro n hn
      cases r with
      | zero =>
          refine ⟨n, fun m hm => ?_⟩
          obtain ⟨r', hle, hr'⟩ := run.ranked hown hother hn hm
          rwa [Nat.le_zero.mp hle] at hr'
      | succ r =>
          obtain ⟨m, hm, ho⟩ := hgo n r hn
          obtain ⟨r', hle, hr'⟩ := run.ranked hown hother hn hm
          obtain ⟨r'', hlt, hr''⟩ := hown _ _ _ _ hr' ho (run.step m)
          exact ih r'' (by omega) (m + 1) hr''

end Rule

/-! ### Runs that come to rest

A run that stops is not an endless one, so a last state that can stay as it is stands for all that
comes after.  That is how finite runs are instances of the rule.
-/

/-- A state that stays as it is, with nothing of its own to do. -/
def rest {s : σ} {a : α} (hidle : M.step s a s)
    (hstuck : ∀ a' s', own a' → ¬ M.step s a' s') : FairRun M own where
  state _ := s
  label _ := a
  step _ := hidle
  fair n h := by
    obtain ⟨a', s', ho, hs⟩ := h n (Nat.le_refl n)
    exact absurd hs (hstuck a' s' ho)

/-- One step more at the front. -/
def cons (run : FairRun M own) {s : σ} {a : α} (h : M.step s a (run.state 0)) :
    FairRun M own where
  state n := Nat.casesOn n s run.state
  label n := Nat.casesOn n a run.label
  step n := by
    cases n with
    | zero => exact h
    | succ n => exact run.step n
  fair n hall := by
    obtain ⟨m, hm, ho⟩ := run.fair n fun m hm => hall (m + 1) (by omega)
    exact ⟨m + 1, by omega, ho⟩

/-- A run that gets to such a state is the start of a fair one. -/
theorem of_path {s s' : σ} {a : α} (hidle : M.step s' a s')
    (hstuck : ∀ a' s'', own a' → ¬ M.step s' a' s'') (hpath : M.Path s s') :
    ∃ run : FairRun M own, run.state 0 = s ∧ ∃ N, ∀ m, N ≤ m → run.state m = s' := by
  induction hpath using Relation.ReflTransGen.head_induction_on with
  | refl => exact ⟨rest hidle hstuck, rfl, 0, fun _ _ => rfl⟩
  | head h _ ih =>
      obtain ⟨b, hb⟩ := h
      obtain ⟨run, h0, N, hN⟩ := ih
      subst h0
      refine ⟨run.cons hb, rfl, N + 1, fun m hm => ?_⟩
      obtain ⟨m, rfl⟩ := Nat.exists_eq_add_of_le' (by omega : 1 ≤ m)
      exact hN m (by omega)

end FairRun
