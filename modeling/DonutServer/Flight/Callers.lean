/-
Who waits for a flight.

A call of `send_command` is in the queue for the lock, or holds it, until it ends.  So the
calls that have not ended are read off the lock: `callers`.  A step lets one of them end, or
none, and only `send_command` itself adds one.

This needs nothing of the bring-ups: it holds in runs with unsafe restarts too.
-/
import DonutServer.Flight.Pairing

namespace DonutServer

open Function

variable {κ σ : Type} {prog : ChildProgram κ σ} {cfg : CoordSettings}

/-! ### Reading the calls off the lock

A caller is in `lock` from the step that calls `send_command` until the one that ends it, and the
lock serves in order, so the calls that wait are a list in which calls are added at the end and
taken out anywhere.  `Among` and `Leaves` are what a step may make of that list.
-/

/-- The call that waits here, and its command. -/
def Waiter.caller : Waiter → Option (CallId × Command)
  | .call c command => some (c, command)
  | .restart => none

/-- The call that holds the lock, and its command. -/
def Holder.caller : Holder → Option (CallId × Command)
  | .call c command _ => some (c, command)
  | .restart => none

theorem Holder.wake_caller (h : Holder) : h.wake.caller = h.caller := by
  cases h with
  | restart => rfl
  | call c command stage => cases stage <;> rfl

namespace Flight

variable {f f' : Flight κ} {w : BringUpTask} {l : List (CallId × Command)}

/-- The calls that have not ended, the holder of the lock first. -/
def callers (f : Flight κ) : List (CallId × Command) :=
  (f.lock.owner.bind Holder.caller).toList ++ f.lock.waiters.filterMap Waiter.caller

/-- Every call that waits is one of those in `l`, in their order. -/
def Among (l : List (CallId × Command)) (f : Flight κ) : Prop := f.callers.Sublist l

/-- Of the calls in `l`, some are left, and the one that ended is not. -/
def Leaves (l : List (CallId × Command)) (r : After κ) : Prop :=
  match r.2.finished with
  | none => r.1.Among l
  | some (c, _) => ∃ command, ((c, command) :: r.1.callers).Sublist l

theorem among_refl : f.Among f.callers := List.Sublist.refl _

/-- Only the lock is looked at. -/
theorem Among.same (h : f.Among l) (hlock : f'.lock = f.lock) : f'.Among l := by
  unfold Among callers at h ⊢
  rw [hlock]
  exact h

theorem callers_of_owner {holder : Holder} (h : f.lock.owner = some holder) :
    f.callers = holder.caller.toList ++ f.lock.waiters.filterMap Waiter.caller := by
  unfold callers
  rw [h]
  rfl

theorem callers_of_free (h : f.lock.owner = none) :
    f.callers = f.lock.waiters.filterMap Waiter.caller := by
  unfold callers
  rw [h]
  rfl

/-- The same calls wait, and a holder that is none may have changed hands. -/
theorem Among.hold {holder : Holder} (h : f.Among l)
    (howner : f.lock.owner.bind Holder.caller = holder.caller) :
    Among l { f with lock := f.lock.hold holder } := by
  unfold Among callers at h ⊢
  rw [howner] at h
  exact h

theorem Among.release (h : f.Among l) : Among l { f with lock := f.lock.release } :=
  (List.sublist_append_right _ _).trans h

/-! ### Bring-ups

The restart task takes its turn at the lock like a caller, and is none.  When it lets go the calls
behind it are as they were.
-/

theorem Among.endBringUp (h : f.Among l) : (endBringUp w f).Among l := by
  cases w with
  | startup => exact h.same rfl
  | restart => exact Among.release (f := f.setTask .restart .absent) (h.same rfl)

theorem Among.setReady (h : f.Among l) : (setReady f).Among l := by
  unfold Among callers Flight.setReady at *
  rcases howner : f.lock.owner with _ | holder
  · rw [howner] at h
    exact h
  · rw [howner] at h
    simp only [Option.map_some, Option.bind_some, Holder.wake_caller]
    exact h

theorem Among.bringUpLoop (h : f.Among l) : (bringUpLoop cfg w f).Among l := by
  unfold Flight.bringUpLoop
  split
  · exact h.endBringUp
  · split
    · exact Among.endBringUp (Among.setReady (h.same rfl))
    · dsimp only
      split <;> exact h.same rfl

theorem Among.readyUp (h : f.Among l) : (readyUp w f).Among l :=
  Among.endBringUp (Among.setReady (h.same rfl))

theorem Among.reprime (h : f.Among l) : (reprime w f).Among l := by
  unfold Flight.reprime
  split
  · exact h.readyUp
  · split
    · exact h.readyUp
    · split
      · exact Among.readyUp (h.same rfl)
      · exact h.same rfl

theorem Among.afterHello {out : Outcome} (h : f.Among l) : (afterHello cfg w out f).1.Among l := by
  unfold Flight.afterHello
  dsimp only
  split
  · exact Among.bringUpLoop (h.same rfl)
  · split
    · exact h.same rfl
    · exact Among.reprime (h.same rfl)
    · exact Among.bringUpLoop (h.same rfl)

theorem Among.afterReprime {args : PrepareCommand} {out : Outcome} (h : f.Among l) :
    (afterReprime cfg w args out f).1.Among l := by
  unfold Flight.afterReprime
  dsimp only
  split
  · exact Among.bringUpLoop (h.same rfl)
  · split <;> exact Among.readyUp (h.same rfl)

theorem resumeBringUp_among {e : Effects} (h : f.resumeBringUp cfg prog w = some (f', e)) :
    f'.Among f.callers := by
  have hrefl : f.Among f.callers := among_refl
  cases resumeBringUp_resumed h with
  | startup htask => exact hrefl.bringUpLoop
  | restart htask hstartup hfree =>
      refine Among.bringUpLoop (hrefl.hold ?_)
      rw [(FifoLock.uncontended_iff.mp hfree).1]
      rfl
  | queued htask hstartup =>
      unfold Among callers
      show List.Sublist (_ ++ (f.lock.waiters ++ [Waiter.restart]).filterMap Waiter.caller) _
      rw [List.filterMap_append]
      simp [Waiter.caller]
  | backoff w htask => exact hrefl.same rfl
  | reaped w htask => exact hrefl.same rfl
  | gaveUp w fatal htask => exact hrefl.setReady.endBringUp
  | hello w k out htask => exact hrefl.afterHello
  | reprimed w k tag args out htask => exact hrefl.afterReprime

/-! ### Callers

Only the holder of the lock can end its call, and the one that comes next has been in the list
before.
-/

theorem Among.startRestart (h : f.Among l) : (startRestart f).Among l := by
  unfold Flight.startRestart
  split
  · exact h
  · dsimp only
    split <;> exact h.same rfl

theorem Among.killChild (h : f.Among l) : (killChild f).Among l := by
  unfold Flight.killChild
  split <;> exact h.same rfl

/-- The holder of the lock ends its call. -/
theorem endCall_leaves {c : CallId} {command : Command} {result : Result} {loss : Option Loss}
    (h : ((c, command) :: f.lock.waiters.filterMap Waiter.caller).Sublist l) :
    Leaves l (f.endCall c result loss) := ⟨command, h⟩

/-- A caller whose turn it is goes on, or ends its call. -/
theorem exchange_leaves {c : CallId} {command : Command}
    (h : ((c, command) :: f.lock.waiters.filterMap Waiter.caller).Sublist l) :
    Leaves l (f.exchange c command) := by
  unfold exchange
  split
  · exact endCall_leaves h
  · exact h

theorem underLock_leaves {c : CallId} {command : Command}
    (h : ((c, command) :: f.lock.waiters.filterMap Waiter.caller).Sublist l) :
    Leaves l (f.underLock c command) := by
  unfold underLock
  split
  · exact exchange_leaves h
  · split
    · exact h
    · exact endCall_leaves h

/-- **A call is added behind the others.** -/
theorem call_leaves (c : CallId) (command : Command) :
    Leaves (f.callers ++ [(c, command)]) (f.call c command) := by
  unfold call
  split
  · rename_i hfree
    obtain ⟨howner, hwaiters⟩ := FifoLock.uncontended_iff.mp hfree
    refine underLock_leaves ?_
    rw [callers_of_free howner, hwaiters]
    exact List.Sublist.refl _
  · unfold Leaves Among callers
    show List.Sublist (_ ++ (f.lock.waiters ++ [Waiter.call c command]).filterMap Waiter.caller) _
    rw [List.filterMap_append, ← List.append_assoc]
    exact List.Sublist.refl _

theorem takeLock_leaves {r : After κ} (h : f.takeLock cfg = some r) : Leaves f.callers r := by
  obtain ⟨f', e⟩ := r
  cases takeLock_locked h with
  | call c command lock hnext =>
      obtain ⟨howner, hwaiters, -⟩ := FifoLock.next?_eq_some.mp hnext
      rw [callers_of_free howner, hwaiters]
      exact underLock_leaves (List.Sublist.refl _)
  | restart lock hnext =>
      obtain ⟨howner, hwaiters, -⟩ := FifoLock.next?_eq_some.mp hnext
      rw [callers_of_free howner, hwaiters]
      refine Among.bringUpLoop (f := { f with lock := lock.hold .restart }) ?_
      exact List.Sublist.refl _

theorem resumeCaller_leaves {r : After κ} (h : f.resumeCaller = some r) : Leaves f.callers r := by
  obtain ⟨f', e⟩ := r
  cases resumeCaller_wentOn h with
  | exchanges c command howner hready =>
      rw [callers_of_owner howner]
      exact exchange_leaves (List.Sublist.refl _)
  | refused c command howner hready =>
      rw [callers_of_owner howner]
      exact endCall_leaves (List.Sublist.refl _)
  | answered c command k tag out howner =>
      rw [callers_of_owner howner]
      unfold afterExchange
      dsimp only
      split
      · refine ⟨command, ?_⟩
        unfold endCall startRestart
        split
        · exact List.Sublist.refl _
        · dsimp only
          split <;> exact List.Sublist.refl _
      · split
        · split <;> exact endCall_leaves (List.Sublist.refl _)
        · exact endCall_leaves (List.Sublist.refl _)

theorem startupTimeout_leaves {r : After κ} (h : f.startupTimeout = some r) :
    Leaves f.callers r := by
  obtain ⟨f', e⟩ := r
  cases startupTimeout_timedOut h with
  | turnedAway c command woken howner =>
      rw [callers_of_owner howner]
      exact endCall_leaves (List.Sublist.refl _)

/-! ### The reader thread

The thread hands a result to the holder of the lock, who still holds it afterwards: a call ends
where its task goes on, not where its answer comes in.
-/

theorem Among.deliver {o : Client} {out : Outcome} (h : f.Among l) : (deliver o out f).Among l := by
  unfold Flight.deliver
  split
  · split
    · exact h.same rfl
    · exact h.same rfl
    · exact h
  · split
    · rename_i howner
      split
      · rename_i hc
        refine h.hold ?_
        rw [howner, hc]
        rfl
      · exact h
    · exact h

theorem Among.deliverReaped (h : f.Among l) : (deliverReaped w f).Among l := by
  unfold Flight.deliverReaped
  split
  · exact h.same rfl
  · exact h

theorem runExecutor_among {fails : Option String} (h : f.runExecutor fails = some f') :
    f'.Among f.callers := by
  have hrefl : f.Among f.callers := among_refl
  cases runExecutor_executed h with
  | reap w rest hjob => exact hrefl.same rfl
  | reapedNone w rest hjob => exact Among.deliverReaped (hrefl.same rfl)
  | reaped w k rest hjob => exact Among.deliverReaped (hrefl.same rfl)
  | unwritten o k tag command rest reason hjob hdead => exact Among.deliver (hrefl.same rfl)
  | written o k tag command rest hjob => exact hrefl.same rfl
  | lost o k timed rest reason hjob hmay => exact Among.deliver (hrefl.same rfl)
  | replied o k timed rest s more hjob hout => exact Among.deliver (hrefl.same rfl)

/-- **No other step adds a call**, and a call that ends no longer waits. -/
theorem next_leaves {a : FlightAction σ} {r : After κ} (hcall : ∀ c command, a ≠ .call c command)
    (h : f.next cfg prog a = some r) : Leaves f.callers r := by
  cases ha : a.child? with
  | some k =>
      obtain ⟨f', e⟩ := r
      obtain ⟨rfl, c', _, rfl⟩ := next_child ha h
      exact among_refl.same rfl
  | none =>
      cases a with
      | call c command => exact absurd rfl (hcall c command)
      | takeLock => exact takeLock_leaves h
      | resumeCaller => exact resumeCaller_leaves h
      | startupTimeout => exact startupTimeout_leaves h
      | resumeBringUp w =>
          have h : f.resumeBringUp cfg prog w = some (r.1, r.2) := h
          unfold Leaves
          rw [resumeBringUp_finished h]
          exact resumeBringUp_among h
      | requestRestart reason =>
          obtain rfl := Option.some.inj h
          unfold requestRestart
          split
          · exact Among.startRestart (among_refl.same rfl)
          · split
            · exact Among.startRestart (Among.same (among_refl.killChild) rfl)
            · exact among_refl.killChild
      | runExecutor fails =>
          obtain ⟨g, hg, rfl⟩ := Option.map_eq_some_iff.mp h
          exact runExecutor_among hg
      | boot k b | receive k | answer k world | finishDeferred k | die k =>
          exact absurd ha (by simp [FlightAction.child?])

theorem started_callers : (Flight.started prog).callers = [] := rfl

end Flight

end DonutServer
