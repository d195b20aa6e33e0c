/-
Two computations run side by side.

`Lockstep R V m m'` says that `m` and `m'`, started in states that stand in `R`, stop
alike: both with values that stand in `V`, or both with one exception, and in states that
stand in `R` again.  There is one rule for each way of building a computation, so that a
program is compared with another along its text, or with itself over a part of the state
that it makes no difference to.

With `Eq` for `R` it says that two computations are the same.  With a relation that leaves a part
of the state open, and one computation on both sides, it says that the computation does not look at
that part.
-/
import DonutServer.Lib.Effect

namespace Effect

variable {σ τ ε α α' β β' : Type}

/-- Both are values, and stand in `V`, or both are one exception. -/
inductive Alike (V : α → β → Prop) : Except ε α → Except ε β → Prop
  | ok {a b} (h : V a b) : Alike V (.ok a) (.ok b)
  | error (x) : Alike V (.error x) (.error x)

theorem Alike.refl {V : α → α → Prop} (hrefl : ∀ a, V a a) (x : Except ε α) : Alike V x x := by
  cases x with
  | ok a => exact .ok (hrefl a)
  | error x => exact .error x

theorem Alike.mono {V V' : α → β → Prop} {x : Except ε α} {y : Except ε β} (h : Alike V x y)
    (hV : ∀ a b, V a b → V' a b) : Alike V' x y := by
  cases h with
  | ok h => exact .ok (hV _ _ h)
  | error x => exact .error x

theorem Alike.eq {x y : Except ε α} (h : Alike Eq x y) : x = y := by
  cases h with
  | ok h => rw [h]
  | error x => rfl

/-- Started alike, both stop alike. -/
def Lockstep (R : σ → τ → Prop) (V : α → β → Prop) (m : Effect σ ε α) (m' : Effect τ ε β) : Prop :=
  ∀ s s', R s s' → Alike V (m.outcome s).1 (m'.outcome s').1 ∧ R (m.outcome s).2 (m'.outcome s').2

namespace Lockstep

variable {R : σ → τ → Prop} {V : α → β → Prop} {m : Effect σ ε α} {m' : Effect τ ε β}

theorem pure {a : α} {b : β} (h : V a b) :
    Lockstep R V (Pure.pure a : Effect σ ε α) (Pure.pure b : Effect τ ε β) :=
  fun _ _ hs => ⟨.ok h, hs⟩

theorem throw (x : ε) :
    Lockstep R V (MonadExcept.throw x : Effect σ ε α) (MonadExcept.throw x : Effect τ ε β) :=
  fun _ _ hs => ⟨.error x, hs⟩

theorem get : Lockstep R R (MonadState.get : Effect σ ε σ) (MonadState.get : Effect τ ε τ) :=
  fun _ _ hs => ⟨.ok hs, hs⟩

theorem write {f : σ → σ} {f' : τ → τ} (h : ∀ s s', R s s' → R (f s) (f' s')) :
    Lockstep R Eq (modify f : Effect σ ε PUnit) (modify f' : Effect τ ε PUnit) :=
  fun _ _ hs => ⟨.ok rfl, h _ _ hs⟩

theorem ofExcept {x : Except ε α} {y : Except ε β} (h : Alike V x y) :
    Lockstep R V (Effect.ofExcept x : Effect σ ε α) (Effect.ofExcept y : Effect τ ε β) :=
  fun _ _ hs => ⟨h, hs⟩

theorem bind {W : α' → β' → Prop} {f : α → Effect σ ε α'} {f' : β → Effect τ ε β'}
    (hm : Lockstep R V m m') (hf : ∀ a b, V a b → Lockstep R W (f a) (f' b)) :
    Lockstep R W (m >>= f) (m' >>= f') := by
  intro s s' hs
  rw [outcome_bind, outcome_bind]
  obtain ⟨hval, hstate⟩ := hm s s' hs
  rcases hrun : m.outcome s with ⟨x, t⟩
  rcases hrun' : m'.outcome s' with ⟨y, t'⟩
  rw [hrun, hrun'] at hval hstate
  cases hval with
  | ok h => exact hf _ _ h t t' hstate
  | error x => exact ⟨.error x, hstate⟩

/-- The first halves give one value, so the second ones are compared at it. -/
theorem then' {W : α' → β' → Prop} {m : Effect σ ε α} {m' : Effect τ ε α}
    {f : α → Effect σ ε α'} {f' : α → Effect τ ε β'} (hm : Lockstep R Eq m m')
    (hf : ∀ a, Lockstep R W (f a) (f' a)) :
    Lockstep R W (m >>= f) (m' >>= f') := by
  refine hm.bind ?_
  intro a b hab
  rw [hab]
  exact hf b

theorem tryCatch {f : ε → Effect σ ε α} {f' : ε → Effect τ ε β} (hm : Lockstep R V m m')
    (hf : ∀ x, Lockstep R V (f x) (f' x)) :
    Lockstep R V (MonadExcept.tryCatch m f) (MonadExcept.tryCatch m' f') := by
  intro s s' hs
  rw [outcome_tryCatch, outcome_tryCatch]
  obtain ⟨hval, hstate⟩ := hm s s' hs
  rcases hrun : m.outcome s with ⟨x, t⟩
  rcases hrun' : m'.outcome s' with ⟨y, t'⟩
  rw [hrun, hrun'] at hval hstate
  cases hval with
  | ok h => exact ⟨.ok h, hstate⟩
  | error x => exact hf x t t' hstate

end Lockstep

end Effect
