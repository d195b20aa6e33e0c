/-
Computations that return or raise, taken apart.

A computation that is written with `do` returns when all of its steps return.  The lemmas take such
a fact apart, one step at a time, and put it together again.
-/
import Mathlib.Data.List.Basic
import Mathlib.Tactic.Common

namespace Except

variable {ε α β : Type}

/-- Two steps return when both do. -/
theorem bind_eq_ok {x : Except ε α} {f : α → Except ε β} {b : β} :
    (x >>= f) = .ok b ↔ ∃ a, x = .ok a ∧ f a = .ok b := by
  cases x with
  | error e => simp [bind, Except.bind]
  | ok a => simp [bind, Except.bind]

/-- A step that follows one that returned. -/
theorem bind_returns {x : Except ε α} {f : α → Except ε β} {a : α} (hx : x = .ok a)
    (hf : ∃ b, f a = .ok b) : ∃ b, (x >>= f) = .ok b := by
  obtain ⟨b, hb⟩ := hf
  exact ⟨b, bind_eq_ok.mpr ⟨a, hx, hb⟩⟩

/-- An exception in other terms is still an exception. -/
theorem mapError_eq_ok {ε' : Type} {f : ε → ε'} {x : Except ε α} {a : α} :
    x.mapError f = .ok a ↔ x = .ok a := by
  cases x with
  | error e => exact ⟨nofun, nofun⟩
  | ok b => exact ⟨fun h => congrArg _ (Except.ok.inj h), fun h => congrArg _ (Except.ok.inj h)⟩

theorem mapM_cons_eq_ok {f : α → Except ε β} {a : α} {l : List α} {r : List β} :
    (a :: l).mapM f = .ok r ↔ ∃ b s, f a = .ok b ∧ l.mapM f = .ok s ∧ r = b :: s := by
  rw [List.mapM_cons]
  constructor
  · intro h
    obtain ⟨b, hb, h⟩ := bind_eq_ok.mp h
    obtain ⟨s, hs, h⟩ := bind_eq_ok.mp h
    exact ⟨b, s, hb, hs, (Except.ok.inj h).symm⟩
  · intro h
    obtain ⟨b, s, hb, hs, rfl⟩ := h
    exact bind_eq_ok.mpr ⟨b, hb, bind_eq_ok.mpr ⟨s, hs, rfl⟩⟩

/-- A loop returns when each of its rounds does: its input and output go in pairs. -/
theorem mapM_eq_ok {f : α → Except ε β} {l : List α} {r : List β} :
    l.mapM f = .ok r ↔ ∃ pairs : List (α × β),
      pairs.map Prod.fst = l ∧ pairs.map Prod.snd = r ∧ ∀ p ∈ pairs, f p.1 = .ok p.2 := by
  induction l generalizing r with
  | nil =>
      rw [List.mapM_nil]
      constructor
      · intro h
        exact ⟨[], rfl, Except.ok.inj h, fun p hp => absurd hp List.not_mem_nil⟩
      · intro h
        obtain ⟨pairs, hfst, hsnd, -⟩ := h
        rw [← hsnd, List.map_eq_nil_iff.mp hfst]
        rfl
  | cons a rest ih =>
      rw [mapM_cons_eq_ok]
      constructor
      · intro h
        obtain ⟨b, bs, hb, hbs, rfl⟩ := h
        obtain ⟨pairs, hfst, rfl, hpairs⟩ := ih.mp hbs
        exact ⟨(a, b) :: pairs, congrArg (a :: ·) hfst, rfl,
          List.forall_mem_cons.mpr ⟨hb, hpairs⟩⟩
      · intro h
        obtain ⟨pairs, hfst, rfl, hpairs⟩ := h
        obtain ⟨p, tail, rfl, rfl, rfl⟩ := List.map_eq_cons_iff.mp hfst
        obtain ⟨hp, htail⟩ := List.forall_mem_cons.mp hpairs
        exact ⟨p.2, tail.map Prod.snd, hp, ih.mpr ⟨tail, rfl, rfl, htail⟩, rfl⟩

/-- A loop whose rounds all return does. -/
theorem mapM_returns {f : α → Except ε β} {l : List α} (h : ∀ a ∈ l, ∃ b, f a = .ok b) :
    ∃ r, l.mapM f = .ok r := by
  induction l with
  | nil => exact ⟨[], rfl⟩
  | cons a rest ih =>
      obtain ⟨⟨b, hb⟩, hrest⟩ := List.forall_mem_cons.mp h
      obtain ⟨bs, hbs⟩ := ih hrest
      rw [List.mapM_cons]
      exact ⟨b :: bs, bind_eq_ok.mpr ⟨b, hb, bind_eq_ok.mpr ⟨bs, hbs, rfl⟩⟩⟩

end Except
