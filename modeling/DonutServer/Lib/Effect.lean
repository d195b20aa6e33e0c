/-
Computations whose writes survive a raise.

A Python function that raises keeps every write it made before the raise, so a
state transformer that hands back a final state in both cases reads one correctly
and a transformer that drops the state on an error does not.  `Effect` is the
first kind.

The rest is the calculus the proofs use.  `Ends m s Q E` says where `m`, started
in `s`, can stop: with a value and state satisfying `Q`, or with an exception and
state satisfying `E`.  There is one rule for each way of building a computation,
stated as an equation, so that a proof rewrites a program into the conditions on
its parts and never unfolds the monad.
-/
import Mathlib.Tactic.Common

/-- A computation over a state `σ` that may raise an `ε`. -/
abbrev Effect (σ ε : Type) := ExceptT ε (StateM σ)

namespace Effect

variable {σ ε α β : Type}

/-- What a run from `s` ends with: a value or an exception, and the state. -/
def outcome (m : Effect σ ε α) (s : σ) : Except ε α × σ := (ExceptT.run m).run s

/-- A result that is already known, raised if it is an error. -/
def ofExcept (x : Except ε α) : Effect σ ε α := ExceptT.mk (pure x)

/-- Where a computation can stop. -/
def Ends (m : Effect σ ε α) (s : σ) (Q : α → σ → Prop) (E : ε → σ → Prop) : Prop :=
  match m.outcome s with
  | (.ok a, t) => Q a t
  | (.error x, t) => E x t

/-! ### One equation for each way of building a computation

There are two families.  `outcome` computes a run, for what is known to the last detail; `ends`
turns a claim about a computation into claims about its parts, for what is known in general.
-/

@[simp] theorem outcome_pure (a : α) (s : σ) :
    outcome (pure a : Effect σ ε α) s = (.ok a, s) := rfl

@[simp] theorem outcome_throw (x : ε) (s : σ) :
    outcome (throw x : Effect σ ε α) s = (.error x, s) := rfl

@[simp] theorem outcome_get (s : σ) : outcome (get : Effect σ ε σ) s = (.ok s, s) := rfl

@[simp] theorem outcome_modify (f : σ → σ) (s : σ) :
    outcome (modify f : Effect σ ε PUnit) s = (.ok ⟨⟩, f s) := rfl

@[simp] theorem outcome_ofExcept (x : Except ε α) (s : σ) :
    outcome (ofExcept x : Effect σ ε α) s = (x, s) := rfl

theorem outcome_bind (m : Effect σ ε α) (f : α → Effect σ ε β) (s : σ) :
    outcome (m >>= f) s = match m.outcome s with
      | (.ok a, t) => (f a).outcome t
      | (.error x, t) => (.error x, t) := by
  show (ExceptT.run (m >>= f)).run s = _
  rw [ExceptT.run_bind, StateT.run_bind]
  unfold outcome
  rcases (ExceptT.run m).run s with ⟨_ | _, t⟩ <;> rfl

/-- Two steps return when both do. -/
theorem outcome_bind_ok {m : Effect σ ε α} {f : α → Effect σ ε β} {s t : σ} {b : β} :
    outcome (m >>= f) s = (.ok b, t) ↔
      ∃ a r, m.outcome s = (.ok a, r) ∧ (f a).outcome r = (.ok b, t) := by
  rw [outcome_bind]
  rcases m.outcome s with ⟨_ | a, r⟩
  · simp
  · constructor
    · exact fun h => ⟨a, r, rfl, h⟩
    · intro hc
      obtain ⟨_, _, h, h'⟩ := hc
      obtain ⟨ha, rfl⟩ := Prod.mk.inj h
      rw [Except.ok.inj ha]
      exact h'

theorem outcome_tryCatch (m : Effect σ ε α) (f : ε → Effect σ ε α) (s : σ) :
    outcome (tryCatch m f) s = match m.outcome s with
      | (.ok a, t) => (.ok a, t)
      | (.error x, t) => (f x).outcome t := by
  show (ExceptT.run (tryCatch m f)).run s = _
  rw [ExceptT.run_tryCatch, StateT.run_bind]
  unfold outcome
  rcases (ExceptT.run m).run s with ⟨_ | _, t⟩ <;> rfl

variable {Q : α → σ → Prop} {E : ε → σ → Prop} {s : σ}

@[simp] theorem ends_pure (a : α) : Ends (pure a : Effect σ ε α) s Q E ↔ Q a s := Iff.rfl

@[simp] theorem ends_throw (x : ε) : Ends (throw x : Effect σ ε α) s Q E ↔ E x s := Iff.rfl

@[simp] theorem ends_get {Q : σ → σ → Prop} :
    Ends (get : Effect σ ε σ) s Q E ↔ Q s s := Iff.rfl

@[simp] theorem ends_modify {Q : PUnit → σ → Prop} (f : σ → σ) :
    Ends (modify f : Effect σ ε PUnit) s Q E ↔ Q ⟨⟩ (f s) := Iff.rfl

@[simp] theorem ends_bind {Q : β → σ → Prop} (m : Effect σ ε α) (f : α → Effect σ ε β) :
    Ends (m >>= f) s Q E ↔ Ends m s (fun a t => Ends (f a) t Q E) E := by
  unfold Ends
  rw [outcome_bind]
  rcases m.outcome s with ⟨_ | _, t⟩ <;> rfl

@[simp] theorem ends_tryCatch (m : Effect σ ε α) (f : ε → Effect σ ε α) :
    Ends (tryCatch m f) s Q E ↔ Ends m s Q (fun x t => Ends (f x) t Q E) := by
  unfold Ends
  rw [outcome_tryCatch]
  rcases m.outcome s with ⟨_ | _, t⟩ <;> rfl

@[simp] theorem ends_ofExcept (x : Except ε α) :
    Ends (ofExcept x : Effect σ ε α) s Q E ↔
      (∀ a, x = .ok a → Q a s) ∧ (∀ y, x = .error y → E y s) := by
  cases x <;> simp [Ends]

/-! ### Reading and weakening

What a run ends with and what is known of all its ends are connected here: a fact about `Ends` is
used by naming the outcome it is applied to.
-/

/-- The rule of consequence. -/
theorem Ends.mono {m : Effect σ ε α} {Q' : α → σ → Prop} {E' : ε → σ → Prop}
    (h : Ends m s Q E) (hQ : ∀ a t, Q a t → Q' a t) (hE : ∀ x t, E x t → E' x t) :
    Ends m s Q' E' := by
  unfold Ends at h ⊢
  split at h
  · exact hQ _ _ h
  · exact hE _ _ h

/-- **Composition.**  What the first half leaves behind, the second goes on from. -/
theorem Ends.bind {m : Effect σ ε α} {f : α → Effect σ ε β} {Q' : β → σ → Prop}
    (h : Ends m s Q E) (hf : ∀ a t, Q a t → Ends (f a) t Q' E) : Ends (m >>= f) s Q' E := by
  rw [ends_bind]
  exact h.mono hf fun _ _ h => h

/-- What every value and every exception satisfies. -/
theorem Ends.of_forall {m : Effect σ ε α} (hQ : ∀ a t, Q a t) (hE : ∀ x t, E x t) :
    Ends m s Q E := by
  unfold Ends
  split
  · exact hQ _ _
  · exact hE _ _

/-- Where a run stops is what the run itself gives. -/
theorem Ends.traced {m : Effect σ ε α} (h : Ends m s Q E) :
    Ends m s (fun a t => Q a t ∧ m.outcome s = (.ok a, t))
      (fun x t => E x t ∧ m.outcome s = (.error x, t)) := by
  unfold Ends at h ⊢
  rcases hrun : m.outcome s with ⟨_ | _, t⟩ <;> rw [hrun] at h <;> exact ⟨h, rfl⟩

/-- What a run that returned satisfies. -/
theorem Ends.of_ok {m : Effect σ ε α} {a : α} {t : σ} (h : Ends m s Q E)
    (hrun : m.outcome s = (.ok a, t)) : Q a t := by
  unfold Ends at h
  rwa [hrun] at h

/-- What a run that raised satisfies. -/
theorem Ends.of_error {m : Effect σ ε α} {x : ε} {t : σ} (h : Ends m s Q E)
    (hrun : m.outcome s = (.error x, t)) : E x t := by
  unfold Ends at h
  rwa [hrun] at h

/-- Whichever way it stops, the final state satisfies what both ways promise. -/
theorem Ends.state {m : Effect σ ε α} {P : σ → Prop}
    (h : Ends m s (fun _ t => P t) (fun _ t => P t)) : P (m.outcome s).2 := by
  unfold Ends at h
  rcases hrun : m.outcome s with ⟨_ | _, t⟩ <;> rw [hrun] at h <;> exact h

/-! ### What a computation leaves alone

For a relation that holds of every state with itself and can be chained, it is enough that each
write keeps to it; then the whole computation does, along its construction.
-/

/-- However `m` stops, it stops in a state that stands in `R` to the one it started in. -/
def Within (R : σ → σ → Prop) (m : Effect σ ε α) : Prop :=
  ∀ s, Ends m s (fun _ t => R s t) (fun _ t => R s t)

namespace Within

variable {R : σ → σ → Prop} {m : Effect σ ε α}

theorem pure (hrefl : ∀ s, R s s) (a : α) : Within R (Pure.pure a : Effect σ ε α) := hrefl

theorem throw (hrefl : ∀ s, R s s) (x : ε) :
    Within R (MonadExcept.throw x : Effect σ ε α) := hrefl

theorem get (hrefl : ∀ s, R s s) : Within R (MonadState.get : Effect σ ε σ) := hrefl

theorem write {f : σ → σ} (h : ∀ s, R s (f s)) : Within R (modify f : Effect σ ε PUnit) := h

theorem ofExcept (hrefl : ∀ s, R s s) (x : Except ε α) :
    Within R (Effect.ofExcept x : Effect σ ε α) := by
  intro s
  rw [ends_ofExcept]
  exact ⟨fun _ _ => hrefl s, fun _ _ => hrefl s⟩

theorem bind (htrans : ∀ s t u, R s t → R t u → R s u) {f : α → Effect σ ε β}
    (hm : Within R m) (hf : ∀ a, Within R (f a)) : Within R (m >>= f) := by
  intro s
  refine Ends.bind (hm s) ?_
  intro a t ht
  refine (hf a t).mono ?_ ?_
  · exact fun _ _ h => htrans _ _ _ ht h
  · exact fun _ _ h => htrans _ _ _ ht h

theorem tryCatch (htrans : ∀ s t u, R s t → R t u → R s u) {f : ε → Effect σ ε α}
    (hm : Within R m) (hf : ∀ x, Within R (f x)) : Within R (MonadExcept.tryCatch m f) := by
  intro s
  have h := (ends_tryCatch (Q := fun _ t => R s t) (E := fun _ t => R s t) (s := s) m f).mpr
  refine h ((hm s).mono (fun _ _ h => h) ?_)
  intro x t ht
  refine (hf x t).mono ?_ ?_
  · exact fun _ _ h => htrans _ _ _ ht h
  · exact fun _ _ h => htrans _ _ _ ht h

theorem mono {R' : σ → σ → Prop} (h : Within R m) (hR : ∀ s t, R s t → R' s t) : Within R' m :=
  fun s => (h s).mono (fun _ t => hR s t) (fun _ t => hR s t)

end Within

end Effect
