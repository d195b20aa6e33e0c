/-
An event that tasks wait for, as `asyncio.Event`.

Setting it wakes everybody who waits, once: a task that was woken goes on when it next
runs, even if the event has been cleared by then.  So a task is asleep exactly while it
is among the waiters, and while the event is set nobody is.

The set of tasks is a parameter, and a waiter's being woken is its no longer being among the
waiters.  When it goes on is for the scheduler to say, which is not part of the event.
-/
import Mathlib.Data.Finset.Basic

/-- An event, and the tasks that wait for it and have not been woken. -/
structure Event (ι : Type) where
  isSet : Bool
  waiters : Finset ι
  quiet : isSet = true → waiters = ∅

namespace Event

variable {ι : Type}

/-- An event nobody has set. -/
def new : Event ι := ⟨false, ∅, fun _ => rfl⟩

/-- `set`. -/
def set (_ : Event ι) : Event ι := ⟨true, ∅, fun _ => rfl⟩

/-- `clear`. -/
def clear (e : Event ι) : Event ι := ⟨false, e.waiters, fun h => absurd h (by simp)⟩

/-- Everybody who waits is woken by something else than the event. -/
def cancel (e : Event ι) : Event ι := ⟨e.isSet, ∅, fun _ => rfl⟩

@[simp] theorem set_waiters (e : Event ι) : e.set.waiters = ∅ := rfl

@[simp] theorem clear_waiters (e : Event ι) : e.clear.waiters = e.waiters := rfl

@[simp] theorem cancel_waiters (e : Event ι) : e.cancel.waiters = ∅ := rfl

/-- Where somebody is asleep the event is clear. -/
theorem isSet_of_mem {e : Event ι} {i : ι} (h : i ∈ e.waiters) : e.isSet = false := by
  by_contra hset
  rw [e.quiet (Bool.not_eq_false _ ▸ hset)] at h
  exact absurd h (Finset.notMem_empty i)

variable [DecidableEq ι]

/-- `wait`, down to its await: a task that finds the event clear falls asleep. -/
def wait (i : ι) (e : Event ι) : Event ι :=
  if h : e.isSet = true then e else ⟨e.isSet, insert i e.waiters, fun h' => absurd h' h⟩

@[simp] theorem clear_wait_waiters (e : Event ι) (i : ι) :
    (e.clear.wait i).waiters = insert i e.waiters := by
  unfold wait
  rw [dif_neg (by simp [clear])]
  rfl

end Event
