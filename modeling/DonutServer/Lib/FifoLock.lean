/-
A fair lock, in the order `asyncio.Lock` grants it.

Someone asking for the lock gets it at once only when nobody holds it and nobody
waits.  Releasing does not hand it over: it wakes the first waiter, who takes it
when it next runs, and until then the lock looks free to `locked` while a newcomer
still has to queue.  The holder keeps a record of type `η`, the waiters one of type
`τ`, so that what a task is doing under the lock lives with the fact that it holds
it, and two tasks cannot both be doing it.
-/
import Mathlib.Data.List.Basic

/-- A fair lock: who holds it, and who waits for it, first come first. -/
structure FifoLock (η τ : Type) where
  owner : Option η
  waiters : List τ
  deriving DecidableEq

namespace FifoLock

variable {η τ : Type}

/-- Nobody holds the lock and nobody waits. -/
def free : FifoLock η τ := ⟨none, []⟩

/-- `locked()`: whether somebody holds it, waiters apart. -/
def locked (l : FifoLock η τ) : Bool := l.owner.isSome

/-- Whether a newcomer gets the lock without waiting. -/
def uncontended (l : FifoLock η τ) : Bool := l.owner.isNone && l.waiters.isEmpty

/-- Join the queue. -/
def enqueue (l : FifoLock η τ) (t : τ) : FifoLock η τ := ⟨l.owner, l.waiters ++ [t]⟩

/-- Hold the lock. -/
def hold (l : FifoLock η τ) (h : η) : FifoLock η τ := ⟨some h, l.waiters⟩

/-- Let go of the lock. -/
def release (l : FifoLock η τ) : FifoLock η τ := ⟨none, l.waiters⟩

/-- The waiter whose turn it is, and the queue without it. -/
def next? (l : FifoLock η τ) : Option (τ × FifoLock η τ) :=
  match l.owner, l.waiters with
  | none, t :: rest => some (t, ⟨none, rest⟩)
  | _, _ => none

@[simp] theorem enqueue_owner (l : FifoLock η τ) (t : τ) : (l.enqueue t).owner = l.owner := rfl

@[simp] theorem enqueue_waiters (l : FifoLock η τ) (t : τ) :
    (l.enqueue t).waiters = l.waiters ++ [t] := rfl

@[simp] theorem hold_owner (l : FifoLock η τ) (h : η) : (l.hold h).owner = some h := rfl

@[simp] theorem hold_waiters (l : FifoLock η τ) (h : η) : (l.hold h).waiters = l.waiters := rfl

@[simp] theorem release_owner (l : FifoLock η τ) : l.release.owner = none := rfl

@[simp] theorem release_waiters (l : FifoLock η τ) : l.release.waiters = l.waiters := rfl

@[simp] theorem uncontended_iff {l : FifoLock η τ} :
    l.uncontended = true ↔ l.owner = none ∧ l.waiters = [] := by
  simp [uncontended]

/-- A turn comes only when nobody holds the lock, and to whoever waited longest. -/
theorem next?_eq_some {l l' : FifoLock η τ} {t : τ} :
    l.next? = some (t, l') ↔ l.owner = none ∧ l.waiters = t :: l'.waiters ∧ l'.owner = none := by
  obtain ⟨o, ws⟩ := l
  obtain ⟨o', ws'⟩ := l'
  cases o with
  | some h => simp [next?]
  | none =>
      cases ws with
      | nil => simp [next?]
      | cons t' rest =>
          simp only [next?, Option.some.injEq, Prod.mk.injEq, mk.injEq, List.cons.injEq, true_and]
          constructor
          · intro hc
            obtain ⟨rfl, rfl, rfl⟩ := hc
            exact ⟨⟨rfl, rfl⟩, rfl⟩
          · intro hc
            obtain ⟨⟨rfl, rfl⟩, rfl⟩ := hc
            exact ⟨rfl, rfl, rfl⟩

end FifoLock
