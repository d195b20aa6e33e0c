/-
Labelled transition systems, and the states their runs reach.

A run may be held to a condition on every step it takes, given as a relation
between the state before, the label and the state after.  `Reach ok` is the set of
states such runs reach, so a statement about `Reach ok` is one about every run all
of whose steps meet the condition, and a condition that always holds gives every
run there is.
-/
import Mathlib.Logic.Relation
import Mathlib.Tactic.Common

/-- Where a system may start, and what each label does to a state. -/
structure System (σ α : Type) where
  init : σ → Prop
  step : σ → α → σ → Prop

namespace System

variable {σ α : Type} {M : System σ α}

/-- Every step is allowed. -/
def always (_ : σ) (_ : α) (_ : σ) : Prop := True

/-- The states reached by the runs all of whose steps meet `ok`. -/
inductive Reach (M : System σ α) (ok : σ → α → σ → Prop) : σ → Prop
  | init {s : σ} : M.init s → Reach M ok s
  | step {s s' : σ} {a : α} : Reach M ok s → ok s a s' → M.step s a s' → Reach M ok s'

variable {ok ok' : σ → α → σ → Prop} {P : σ → Prop}

/-- **The invariant rule.**  What holds at the start and is kept by every allowed step
holds wherever a run gets to. -/
theorem Reach.invariant {s : σ} (h : Reach M ok s) (hinit : ∀ s, M.init s → P s)
    (hstep : ∀ s a s', P s → ok s a s' → M.step s a s' → P s') : P s := by
  induction h with
  | init h0 => exact hinit _ h0
  | step _ hok hs ih => exact hstep _ _ _ ih hok hs

/-- The invariant rule where a step may also use that its state was reached. -/
theorem Reach.invariant' {s : σ} (h : Reach M ok s) (hinit : ∀ s, M.init s → P s)
    (hstep : ∀ s a s', Reach M ok s → P s → ok s a s' → M.step s a s' → P s') : P s := by
  induction h with
  | init h0 => exact hinit _ h0
  | step hr hok hs ih => exact hstep _ _ _ hr ih hok hs

/-- A run that meets a stronger condition meets a weaker one. -/
theorem Reach.mono {s : σ} (h : Reach M ok s)
    (hok : ∀ s a s', Reach M ok s → ok s a s' → M.step s a s' → ok' s a s') :
    Reach M ok' s := by
  induction h with
  | init h0 => exact .init h0
  | step hr ho hs ih => exact .step ih (hok _ _ _ hr ho hs) hs

/-- Some run leads from one state to the other. -/
def Path (M : System σ α) : σ → σ → Prop := Relation.ReflTransGen fun s s' => ∃ a, M.step s a s'

/-- Some run leads from one state to the other, all of whose steps meet `ok`. -/
def PathWhen (M : System σ α) (ok : σ → α → σ → Prop) : σ → σ → Prop :=
  Relation.ReflTransGen fun s s' => ∃ a, ok s a s' ∧ M.step s a s'

/-- A run can be gone on with. -/
theorem Reach.path {s s' : σ} (h : Reach M ok s) (hpath : M.PathWhen ok s s') : Reach M ok s' := by
  induction hpath with
  | refl => exact h
  | tail _ hstep ih =>
      obtain ⟨a, hok, hs⟩ := hstep
      exact .step ih hok hs

/-! ### Following a run

A particular run is shown by computing it: its labels are listed, a function takes each step where
it can be taken, and what comes out is a state that the run reaches.
-/

/-- Take the steps of a list in turn, where a function says what each one does. -/
def follow (next : σ → α → Option σ) : List α → σ → Option σ
  | [], s => some s
  | a :: rest, s => (next s a).bind (follow next rest)

/-- A run that can be followed from a start is a run. -/
theorem Reach.follow {next : σ → α → Option σ}
    (hnext : ∀ s a s', next s a = some s' → M.step s a s' ∧ ok s a s') :
    ∀ (l : List α) {s s' : σ}, Reach M ok s → System.follow next l s = some s' → Reach M ok s' := by
  intro l
  induction l with
  | nil =>
      intro s s' hs h
      rw [← Option.some.inj h]
      exact hs
  | cons a rest ih =>
      intro s s' hs h
      obtain ⟨t, ht, hrest⟩ := Option.bind_eq_some_iff.mp h
      obtain ⟨hstep, hok⟩ := hnext s a t ht
      exact ih (.step hs hok hstep) hrest

/-- Take the steps of a list in turn, as long as each one passes a check. -/
def followWhen (check : σ → α → Bool) (next : σ → α → Option σ) : List α → σ → Option σ :=
  follow fun s a => if check s a = true then next s a else none

theorem followWhen_cons {check : σ → α → Bool} {next : σ → α → Option σ} {a : α} {rest : List α}
    {s s' : σ} (h : followWhen check next (a :: rest) s = some s') :
    check s a = true ∧ ∃ t, next s a = some t ∧ followWhen check next rest t = some s' := by
  obtain ⟨t, ht, hrest⟩ := Option.bind_eq_some_iff.mp h
  by_cases hpass : check s a = true
  · exact ⟨hpass, t, (if_pos hpass).symm.trans ht, hrest⟩
  · exact absurd ((if_neg hpass).symm.trans ht) (by simp)

/-- A run all of whose steps pass a check is a run that meets what the check stands for. -/
theorem Reach.followWhen {check : σ → α → Bool} {next : σ → α → Option σ} {l : List α}
    (hnext : ∀ s a s', next s a = some s' → M.step s a s')
    (hcheck : ∀ s a s', check s a = true → ok s a s') {s s' : σ} (hs : Reach M ok s)
    (h : System.followWhen check next l s = some s') : Reach M ok s' := by
  refine Reach.follow (fun s a s' hstep => ?_) l hs h
  by_cases hpass : check s a = true
  · rw [if_pos hpass] at hstep
    exact ⟨hnext s a s' hstep, hcheck s a s' hpass⟩
  · rw [if_neg hpass] at hstep
    exact absurd hstep (by simp)

end System
