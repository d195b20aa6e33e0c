/-
Exactly one bring-up.

Seen from outside, a `Coord` is a machine with four kinds of state: something is
bringing a child up, a fatal first message is being cleaned up after, it serves, or
it has given up.  `Life` is that machine and `Life.Step` what it may do.  As long as
no operator's restart comes while a first bring-up is under way with nothing on the
thread, or while a fatal first message is being cleaned up after, every step of the
flight is a step of it, or none.

The two exceptions are real.  `request_restart` asks `_state` and `_in_flight`, and
neither says that the startup task is asleep in its backoff or waits for the reap:
a second bring-up is scheduled beside it.  In the cleanup `_state` says DEGRADED, so
the restart is either scheduled beside the task that is cleaning up, or taken to be
that very task, which then returns and leaves RESTARTING with nobody restarting.
-/
import DonutServer.Flight.FrontEnd

namespace DonutServer

open Function

variable {κ σ : Type} {prog : ChildProgram κ σ} {cfg : CoordSettings}

/-! ### The machine seen from outside

Four states are enough for whoever watches a `Coord` from outside, and three facts for whoever asks
what is true of it: how many bring-up tasks there are, whether one is there when the state says so,
and which children live.  `Shows` ties the two together, and the rest of the file shows that safe
runs never leave it.
-/

/-- What a bring-up task is there for, if it is there. -/
inductive Standing
  | none
  | bringingUp
  | givingUp
  deriving DecidableEq

/-- What a bring-up task is for: nothing any more, giving up, or bringing the flight up. -/
def BringUp.standing : BringUp → Standing
  | .absent => .none
  | .reaping (some _) _ => .givingUp
  | _ => .bringingUp

/-- A `Coord` as an operator thinks of it. -/
inductive Life
  | bringingUp (w : BringUpTask)
  | givingUp (w : BringUpTask)
  | ready
  | degraded

/-- What it may do: come up, give up at once or after cleaning up, lose its child, and
be told to try again. -/
inductive Life.Step : Life → Life → Prop
  | stay (l : Life) : Step l l
  | up (w : BringUpTask) : Step (.bringingUp w) .ready
  | exhausted (w : BringUpTask) : Step (.bringingUp w) .degraded
  | fatal (w : BringUpTask) : Step (.bringingUp w) (.givingUp w)
  | cleaned (w : BringUpTask) : Step (.givingUp w) .degraded
  | lost : Step .ready (.bringingUp .restart)
  | retried : Step .degraded (.bringingUp .restart)

/-- The state a bring-up by `w` goes with. -/
def BringUpTask.state : BringUpTask → CoordState
  | .startup => .starting
  | .restart => .restarting

namespace Flight

variable {f f' : Flight κ} {w : BringUpTask}

/-- Task `w` stands at `s`, and the other does not exist. -/
def Alone (w : BringUpTask) (s : Standing) (f : Flight κ) : Prop :=
  (f.tasks w).standing = s ∧ (f.tasks w.other).standing = .none

/-- How the machine shows in the flight's fields. -/
def Shows (f : Flight κ) : Life → Prop
  | .bringingUp w => f.state = w.state ∧ f.Alone w .bringingUp
  | .givingUp w => f.state = .degraded ∧ f.Alone w .givingUp
  | .ready => f.state = .ready ∧ ∀ w, (f.tasks w).standing = .none
  | .degraded => f.state = .degraded ∧ ∀ w, (f.tasks w).standing = .none

/-- **Exactly one bring-up**: at most one exists, one does exactly when the state says
so, and every child but the newest is reaped. -/
structure OneBringUp (f : Flight κ) : Prop where
  atMostOne : f.tasks .startup = .absent ∨ f.tasks .restart = .absent
  bringingUp : f.state = .starting ∨ f.state = .restarting → ∃ w, f.tasks w ≠ .absent
  reaped : ∀ k, k + 1 < f.spawns → (f.children k).reaped = true
  oneAlive : ∀ j k, (f.children j).alive = true → (f.children k).alive = true → j = k

/-- `request_restart` may come: no first bring-up is under way with nothing on the
thread, and no fatal first message is being cleaned up after. -/
def SafeToRestart (f : Flight κ) : Prop :=
  ¬ (f.state = .starting ∧ f.inFlight = 0) ∧
    ¬ (f.state = .degraded ∧ ∃ w, (f.tasks w).standing = .givingUp)

/-- Runs in which no operator's restart comes at a bad moment. -/
def safeRestarts (f : Flight κ) (a : FlightAction σ) (_ : Flight κ) : Prop :=
  ∀ reason, a = .requestRestart reason → f.SafeToRestart

theorem standing_eq_none {b : BringUp} : b.standing = .none ↔ b = .absent := by
  cases b with
  | reaping fatal done => cases fatal <;> simp [BringUp.standing]
  | _ => simp [BringUp.standing]

/-- A task that is active is there. -/
theorem standing_of_active {b : BringUp} (h : b.active = true) : b.standing ≠ .none := by
  intro hc
  rw [standing_eq_none.mp hc] at h
  exact absurd h (by simp [BringUp.active])

/-! ### What a turn of a bring-up task leads to

A turn of a bring-up task has one of four ends, whatever segment it was: the task waits for
something else, it returns in READY, it returns having given up, or it begins to clean up after a
fatal first message.  The lemmas go up the calls of `_bring_up` to that list.
-/

/-- What task `w`, which ran while the state was `s`, left behind. -/
inductive Turn (s : CoordState) (w : BringUpTask) (f' : Flight κ) : Prop
  | wait (state : f'.state = s) (standing : (f'.tasks w).standing = .bringingUp)
  | up (state : f'.state = .ready) (standing : (f'.tasks w).standing = .none)
  | exhausted (state : f'.state = .degraded) (standing : (f'.tasks w).standing = .none)
  | fatal (state : f'.state = .degraded) (standing : (f'.tasks w).standing = .givingUp)

/-- A task that ends leaves the state as it is. -/
theorem endBringUp_state : (endBringUp w f).state = f.state := by
  cases w <;> rfl

theorem endBringUp_self : ((endBringUp w f).tasks w).standing = .none := by
  cases w <;> simp [endBringUp, setTask, BringUp.standing]

theorem endBringUp_other : (endBringUp w f).tasks w.other = f.tasks w.other := by
  cases w <;> rfl

theorem Turn.setTask {s : CoordState} {b : BringUp} (hs : f.state = s)
    (hb : b.standing = .bringingUp) : Turn s w (f.setTask w b) :=
  .wait hs (by rw [setTask_self]; exact hb)

theorem bringUpLoop_turn (hrun : f.state ≠ .stopping) :
    Turn f.state w (bringUpLoop cfg w f) ∧
      (bringUpLoop cfg w f).tasks w.other = f.tasks w.other := by
  unfold bringUpLoop
  rw [if_neg hrun]
  split
  · exact ⟨.exhausted endBringUp_state endBringUp_self, endBringUp_other⟩
  · dsimp only
    split
    · exact ⟨.setTask rfl rfl, setTask_other ..⟩
    · exact ⟨.setTask rfl rfl, setTask_other ..⟩

theorem readyUp_turn {s : CoordState} :
    Turn s w (readyUp w f) ∧ (readyUp w f).tasks w.other = f.tasks w.other :=
  ⟨.up endBringUp_state endBringUp_self, endBringUp_other⟩

theorem reprime_turn :
    Turn f.state w (reprime w f) ∧ (reprime w f).tasks w.other = f.tasks w.other := by
  unfold reprime
  split
  · exact readyUp_turn
  split
  · exact readyUp_turn
  split
  · exact readyUp_turn (f := { f with reprimeError := some "no coordinator process" })
  · exact ⟨.setTask rfl rfl, setTask_other ..⟩

theorem afterHello_turn {out : Outcome} (hrun : f.state ≠ .stopping) :
    Turn f.state w (afterHello cfg w out f).1 ∧
      (afterHello cfg w out f).1.tasks w.other = f.tasks w.other := by
  unfold afterHello
  split
  · exact bringUpLoop_turn (f := noteLoss _ _ { f with inFlight := f.inFlight - 1 }) hrun
  · split
    · exact ⟨.fatal rfl (by rw [setTask_self]; rfl), setTask_other ..⟩
    · exact reprime_turn (f := { f with
        inFlight := f.inFlight - 1, generation := f.generation + 1, restartAttempts := 0 })
    · exact bringUpLoop_turn (f := noteLoss _ _ { f with inFlight := f.inFlight - 1 }) hrun

theorem afterReprime_turn {args : PrepareCommand} {out : Outcome} (hrun : f.state ≠ .stopping) :
    Turn f.state w (afterReprime cfg w args out f).1 ∧
      (afterReprime cfg w args out f).1.tasks w.other = f.tasks w.other := by
  unfold afterReprime
  split
  · exact bringUpLoop_turn (f := noteLoss _ _ { f with inFlight := f.inFlight - 1 }) hrun
  · dsimp only
    split
    · exact readyUp_turn
        (f := notePrepared args _ (handOver _ { f with inFlight := f.inFlight - 1 }))
    · exact readyUp_turn (f := { handOver _ { f with inFlight := f.inFlight - 1 } with
        primedArgs := none, reprimeError := _ })

/-- A task that is bringing a child up goes on, or comes to one of three ends. -/
theorem resumeBringUp_turn {e : Effects} (hrun : f.state ≠ .stopping)
    (hw : (f.tasks w).standing = .bringingUp) (h : f.resumeBringUp cfg prog w = some (f', e)) :
    Turn f.state w f' ∧ f'.tasks w.other = f.tasks w.other := by
  cases resumeBringUp_resumed h with
  | startup htask => exact bringUpLoop_turn hrun
  | restart htask hstartup hfree =>
      exact bringUpLoop_turn (f := { f with lock := f.lock.hold .restart }) hrun
  | queued htask hstartup => exact ⟨.wait rfl rfl, rfl⟩
  | backoff w htask => exact ⟨.setTask rfl rfl, setTask_other ..⟩
  | reaped w htask =>
      refine ⟨.wait rfl ?_, setTask_other ..⟩
      show (update f.tasks w (.hello f.spawns none) w).standing = _
      rw [update_self]
      rfl
  | gaveUp w fatal htask =>
      rw [htask] at hw
      exact absurd hw (by simp [BringUp.standing])
  | hello w k out htask => exact afterHello_turn hrun
  | reprimed w k tag args out htask => exact afterReprime_turn hrun

/-- A task that cleans up after a fatal message ends, and nothing else. -/
theorem resumeBringUp_cleaned {e : Effects} (hw : (f.tasks w).standing = .givingUp)
    (h : f.resumeBringUp cfg prog w = some (f', e)) :
    f'.state = f.state ∧ (f'.tasks w).standing = .none ∧ f'.tasks w.other = f.tasks w.other := by
  cases resumeBringUp_resumed h with
  | gaveUp w fatal htask => exact ⟨endBringUp_state, endBringUp_self, endBringUp_other⟩
  | startup htask | restart htask | queued htask | backoff w htask | reaped w htask
  | hello w k out htask | reprimed w k tag args out htask =>
      rw [htask] at hw
      exact absurd hw (by simp [BringUp.standing])

/-! ### What leaves the machine where it is

Most of what happens on a flight is not seen from outside: commands are queued and answered, the
thread works, children speak and die.  `Steady` is what these steps have in common.
-/

/-- Neither the state nor what the bring-up tasks stand for has changed. -/
structure Steady (f f' : Flight κ) : Prop where
  state : f'.state = f.state
  standing : ∀ w, (f'.tasks w).standing = (f.tasks w).standing

/-- Only the state and the tasks are looked at. -/
theorem Steady.same (hsame : (f'.state, f'.tasks) = (f.state, f.tasks)) : Steady f f' := by
  obtain ⟨hstate, htasks⟩ := Prod.mk.inj hsame
  exact ⟨hstate, fun w => by rw [htasks]⟩

theorem Steady.after {g : Flight κ} (h : Steady g f')
    (hsame : (g.state, g.tasks) = (f.state, f.tasks)) : Steady f f' := by
  obtain ⟨hstate, htasks⟩ := Prod.mk.inj hsame
  exact ⟨h.state.trans hstate, fun w => by rw [h.standing w, htasks]⟩

theorem Steady.shows {l : Life} (h : Steady f f') (hl : f.Shows l) : f'.Shows l := by
  cases l with
  | bringingUp w | givingUp w =>
      obtain ⟨hs, h1, h2⟩ := hl
      exact ⟨h.state.trans hs, (h.standing w).trans h1, (h.standing w.other).trans h2⟩
  | ready | degraded => exact ⟨h.state.trans hl.1, fun w => (h.standing w).trans (hl.2 w)⟩

theorem setTask_steady {b : BringUp} (hb : b.standing = (f.tasks w).standing) :
    Steady f (f.setTask w b) := by
  refine ⟨rfl, fun w' => ?_⟩
  by_cases hw : w' = w
  · subst hw
    rw [setTask_self, hb]
  · simp [setTask, hw]

theorem deliver_steady {o : Client} {out : Outcome} : Steady f (deliver o out f) := by
  unfold deliver
  split
  · split
    · rename_i hw
      exact setTask_steady (by rw [hw]; rfl)
    · rename_i hw
      exact setTask_steady (by rw [hw]; rfl)
    · exact .same rfl
  · split
    · split
      · exact .same rfl
      · exact .same rfl
    · exact .same rfl

theorem deliverReaped_steady : Steady f (deliverReaped w f) := by
  unfold deliverReaped
  split
  · rename_i fatal hw
    refine setTask_steady ?_
    rw [hw]
    cases fatal <;> rfl
  · exact .same rfl

theorem runExecutor_steady {fails : Option String} (h : f.runExecutor fails = some f') :
    Steady f f' := by
  cases runExecutor_executed h with
  | reap w rest hjob => exact .same rfl
  | reapedNone w rest hjob => exact deliverReaped_steady.after rfl
  | reaped w k rest hjob => exact deliverReaped_steady.after rfl
  | unwritten o k tag command rest reason hjob hdead => exact deliver_steady.after rfl
  | written o k tag command rest hjob => exact .same rfl
  | lost o k timed rest reason hjob hmay => exact deliver_steady.after rfl
  | replied o k timed rest s more hjob hout => exact deliver_steady.after rfl

theorem exchange_steady {c : CallId} {command : Command} : Steady f (f.exchange c command).1 := by
  unfold exchange
  split
  · exact .same rfl
  · exact .same rfl

theorem underLock_steady {c : CallId} {command : Command} : Steady f (f.underLock c command).1 := by
  unfold underLock
  split
  · exact exchange_steady
  split
  · exact .same rfl
  · exact .same rfl

theorem call_steady {c : CallId} {command : Command} : Steady f (f.call c command).1 := by
  unfold call
  split
  · exact underLock_steady
  · exact .same rfl

theorem startupTimeout_steady {e : Effects} (h : f.startupTimeout = some (f', e)) :
    Steady f f' := by
  cases startupTimeout_timedOut h with
  | turnedAway c command woken howner => exact .same rfl

theorem killChild_steady : Steady f (killChild f) := by
  unfold killChild
  split
  · exact .same rfl
  · exact .same rfl

theorem noteLoss_steady {reason : String} {provokedBy : Option String} :
    Steady f (noteLoss reason provokedBy f) := .same rfl

/-! ### What starts a restart

A restart is scheduled by a caller that comes back with a lost child, or by the operator, and
enters `_bring_up` once the lock is its own.  In each the machine makes the step that an operator
would expect, provided that no other bring-up is there; that proviso is what a safe restart buys.
-/

theorem eq_other {w' : BringUpTask} (h : w' ≠ w) : w' = w.other := by
  cases w' <;> cases w <;> first | rfl | exact absurd rfl h

/-- From READY or DEGRADED with no bring-up there, a restart is scheduled; where one is
already restarting, it goes on. -/
theorem startRestart_shows {l : Life} (hl : f.Shows l)
    (hw : l = .ready ∨ l = .degraded ∨ l = .bringingUp .restart) :
    (startRestart f).Shows (.bringingUp .restart) := by
  have fresh : f.state ≠ .stopping → (∀ w, (f.tasks w).standing = .none) →
      (startRestart f).Shows (.bringingUp .restart) := by
    intro hrun hnone
    unfold startRestart
    rw [if_neg hrun]
    dsimp only
    rw [if_pos (standing_eq_none.mp (hnone .restart))]
    exact ⟨rfl, rfl, hnone .startup⟩
  rcases hw with rfl | rfl | rfl
  · exact fresh (by rw [hl.1]; simp) hl.2
  · exact fresh (by rw [hl.1]; simp) hl.2
  · obtain ⟨hs, h1, h2⟩ := hl
    have hthere : f.tasks .restart ≠ .absent := by
      intro hc
      rw [hc] at h1
      exact absurd h1 (by simp [BringUp.standing])
    unfold startRestart
    rw [if_neg (by rw [hs]; simp [BringUpTask.state])]
    dsimp only
    rw [if_neg hthere]
    exact ⟨rfl, h1, h2⟩

/-- No run shuts the flight down. -/
theorem Shows.running {l : Life} (hl : f.Shows l) : f.state ≠ .stopping := by
  cases l with
  | bringingUp w => cases w <;> rw [hl.1] <;> simp [BringUpTask.state]
  | givingUp w | ready | degraded => rw [hl.1]; simp

/-- Where a task is there, it is the one that the flight's life speaks of. -/
theorem Shows.standing_other {l : Life} (hl : f.Shows l) (hw : (f.tasks w).standing ≠ .none) :
    l = .bringingUp w ∨ l = .givingUp w := by
  have other : ∀ {w' : BringUpTask} {s : Standing}, f.Alone w' s → w' = w := by
    intro w' s hal
    by_contra hne
    rw [eq_other (Ne.symm hne)] at hw
    exact hw hal.2
  cases l with
  | bringingUp w' => exact Or.inl (by rw [other hl.2])
  | givingUp w' => exact Or.inr (by rw [other hl.2])
  | ready | degraded => exact absurd (hl.2 w) hw

/-- A turn of a bring-up task is a step of the machine. -/
theorem Turn.life {l : Life} (hl : f.Shows l) (hw : (f.tasks w).standing = .bringingUp)
    (ht : Turn f.state w f') (hother : f'.tasks w.other = f.tasks w.other) :
    ∃ l', Life.Step l l' ∧ f'.Shows l' := by
  obtain rfl : l = .bringingUp w := by
    rcases hl.standing_other (w := w) (by rw [hw]; simp) with rfl | rfl
    · rfl
    · exact absurd (hl.2.1.symm.trans hw) (by simp)
  have ho : (f'.tasks w.other).standing = .none := by rw [hother]; exact hl.2.2
  have both : (f'.tasks w).standing = .none → ∀ w', (f'.tasks w').standing = .none := by
    intro hn w'
    by_cases hww : w' = w
    · rw [hww]
      exact hn
    · rw [eq_other hww]
      exact ho
  cases ht with
  | wait hs hst => exact ⟨_, .stay _, hs.trans hl.1, hst, ho⟩
  | up hs hst => exact ⟨_, .up w, hs, both hst⟩
  | exhausted hs hst => exact ⟨_, .exhausted w, hs, both hst⟩
  | fatal hs hst => exact ⟨_, .fatal w, hs, hst, ho⟩

/-- A steady step is one step of a flight's life. -/
theorem Steady.life {l : Life} (hl : f.Shows l) (h : Steady f f') :
    ∃ l', Life.Step l l' ∧ f'.Shows l' := ⟨l, .stay l, h.shows hl⟩

/-- The state tells the two resting places from the rest. -/
theorem Shows.eq_ready {l : Life} (hl : f.Shows l) (hready : f.state = .ready) : l = .ready := by
  cases l with
  | ready => rfl
  | bringingUp w =>
      cases w <;> exact absurd (hl.1.symm.trans hready) (by simp [BringUpTask.state])
  | givingUp w | degraded => exact absurd (hl.1.symm.trans hready) (by simp)

/-- DEGRADED with nobody cleaning up is the end of a bring-up. -/
theorem Shows.eq_degraded {l : Life} (hl : f.Shows l) (hdegraded : f.state = .degraded)
    (hnone : ¬ ∃ w, (f.tasks w).standing = .givingUp) : l = .degraded := by
  cases l with
  | degraded => rfl
  | givingUp w => exact absurd ⟨w, hl.2.1⟩ hnone
  | bringingUp w =>
      cases w <;> exact absurd (hl.1.symm.trans hdegraded) (by simp [BringUpTask.state])
  | ready => exact absurd (hl.1.symm.trans hdegraded) (by simp)

/-- Whoever takes the lock next, a restart that waited for it among them. -/
theorem takeLock_life {e : Effects} {l : Life} (hi : Inv prog f) (hl : f.Shows l)
    (h : f.takeLock cfg = some (f', e)) : ∃ l', Life.Step l l' ∧ f'.Shows l' := by
  cases takeLock_locked h with
  | call c command lock hnext => exact Steady.life hl (underLock_steady.after rfl)
  | restart lock hnext =>
      have hstanding : (f.tasks .restart).standing = .bringingUp := by
        rw [hi.held.restart_queued hnext]
        rfl
      have hturn := @bringUpLoop_turn _ cfg { f with lock := lock.hold .restart } .restart hl.running
      exact hturn.1.life hl hstanding hturn.2

/-- A caller that comes back with a lost child starts the restart. -/
theorem resumeCaller_life {e : Effects} {l : Life} (hi : Inv prog f) (hl : f.Shows l)
    (h : f.resumeCaller = some (f', e)) : ∃ l', Life.Step l l' ∧ f'.Shows l' := by
  cases resumeCaller_wentOn h with
  | exchanges c command howner hready => exact exchange_steady.life hl
  | refused c command howner hready => exact Steady.life hl (.same rfl)
  | answered c command k tag out howner =>
      obtain ⟨-, hready, -⟩ := hi.serial.served howner
      have hlife := hl.eq_ready hready
      subst hlife
      cases out with
      | lost reason =>
          refine ⟨_, .lost, ?_⟩
          have hs : ({ f with inFlight := f.inFlight - 1 }.noteLoss reason
              (some command.cmd)).Shows .ready := hl
          exact startRestart_shows hs (Or.inl rfl)
      | reply s =>
          refine Steady.life hl ?_
          simp only [afterExchange]
          split
          · split
            · exact .same rfl
            · exact .same rfl
          · exact .same rfl

/-- A task with a turn to take is there. -/
theorem standing_of_resume {e : Effects} (h : f.resumeBringUp cfg prog w = some (f', e)) :
    (f.tasks w).standing ≠ .none := by
  intro hc
  simp only [resumeBringUp, standing_eq_none.mp hc] at h
  exact absurd h (by simp)

/-- While a bring-up task has a turn to take, the other does not exist and nothing is served. -/
theorem Shows.acting {e : Effects} {l : Life} (hl : f.Shows l)
    (h : f.resumeBringUp cfg prog w = some (f', e)) :
    f.tasks w.other = .absent ∧ f.state ≠ .ready := by
  rcases hl.standing_other (standing_of_resume h) with rfl | rfl
  · refine ⟨standing_eq_none.mp hl.2.2, ?_⟩
    rw [hl.1]
    cases w <;> simp [BringUpTask.state]
  · refine ⟨standing_eq_none.mp hl.2.2, ?_⟩
    rw [hl.1]
    simp

/-- A bring-up task takes its turn, or ends its cleanup. -/
theorem resumeBringUp_life {e : Effects} {l : Life} (hl : f.Shows l)
    (h : f.resumeBringUp cfg prog w = some (f', e)) : ∃ l', Life.Step l l' ∧ f'.Shows l' := by
  cases hst : (f.tasks w).standing with
  | none => exact absurd hst (standing_of_resume h)
  | bringingUp =>
      obtain ⟨ht, ho⟩ := resumeBringUp_turn hl.running hst h
      exact ht.life hl hst ho
  | givingUp =>
      obtain ⟨hs, hself, ho⟩ := resumeBringUp_cleaned hst h
      obtain rfl : l = .givingUp w := by
        rcases hl.standing_other (w := w) (by rw [hst]; simp) with rfl | rfl
        · exact absurd (hl.2.1.symm.trans hst) (by simp)
        · rfl
      refine ⟨.degraded, .cleaned w, hs.trans hl.1, fun w' => ?_⟩
      by_cases hww : w' = w
      · rw [hww]
        exact hself
      · rw [eq_other hww, ho]
        exact hl.2.2

/-- A restart that comes at a good moment. -/
theorem requestRestart_life {reason : String} {l : Life} (hl : f.Shows l)
    (hsafe : f.SafeToRestart) :
    ∃ l', Life.Step l l' ∧ (f.requestRestart reason).1.Shows l' := by
  obtain ⟨hstarting, hcleaning⟩ := hsafe
  unfold requestRestart
  split
  · rename_i hdegraded
    have hlife := hl.eq_degraded hdegraded fun hw => hcleaning ⟨hdegraded, hw⟩
    subst hlife
    refine ⟨_, .retried, ?_⟩
    have hs : ({ f with restartAttempts := 0, degradedReason := none, fatalReason := none } :
        Flight κ).Shows .degraded := hl
    exact startRestart_shows hs (Or.inr (Or.inl rfl))
  split
  · rename_i hdegraded hin
    have hs : (noteLoss reason none (killChild f)).Shows l :=
      noteLoss_steady.shows (killChild_steady.shows hl)
    cases l with
    | ready => exact ⟨_, .lost, startRestart_shows hs (Or.inl rfl)⟩
    | degraded | givingUp w => exact absurd hl.1 hdegraded
    | bringingUp w =>
        cases w with
        | startup => exact absurd ⟨hl.1, hin⟩ hstarting
        | restart => exact ⟨_, .stay _, startRestart_shows hs (Or.inr (Or.inr rfl))⟩
  · exact ⟨l, .stay l, killChild_steady.shows hl⟩

/-- **The flight simulates nothing but the machine**: a step taken with safe restarts
is one of its steps, or none. -/
theorem next_life {a : FlightAction σ} {e : Effects} {l : Life} (hi : Inv prog f)
    (hl : f.Shows l) (hsafe : safeRestarts f a f') (h : f.next cfg prog a = some (f', e)) :
    ∃ l', Life.Step l l' ∧ f'.Shows l' := by
  cases ha : a.child? with
  | some k =>
      obtain ⟨_, c', _, rfl⟩ := next_child ha h
      exact Steady.life hl (.same rfl)
  | none =>
      cases a with
      | call c command =>
          obtain rfl := congrArg Prod.fst (Option.some.inj h)
          exact call_steady.life hl
      | takeLock => exact takeLock_life hi hl h
      | resumeCaller => exact resumeCaller_life hi hl h
      | startupTimeout => exact (startupTimeout_steady h).life hl
      | resumeBringUp w => exact resumeBringUp_life hl h
      | requestRestart reason =>
          obtain rfl := congrArg Prod.fst (Option.some.inj h)
          exact requestRestart_life hl (hsafe reason rfl)
      | runExecutor fails => exact (runExecutor_steady (next_runExecutor h).1).life hl
      | boot k b | receive k | answer k world | finishDeferred k | die k =>
          exact absurd ha (by simp [FlightAction.child?])

/-! ### Every run with safe restarts

By the step lemma a safe run is a run of the machine.  In each of the machine's states at most one
bring-up task exists, so safe runs are among those that the invariants of the pipe are about, and
what those say of children that were reaped gives the rest of the claim.
-/

/-- One of the two tasks is gone. -/
theorem Shows.atMostOne {l : Life} (hl : f.Shows l) :
    f.tasks .startup = .absent ∨ f.tasks .restart = .absent := by
  have absent := fun w => @standing_eq_none (f.tasks w)
  cases l with
  | bringingUp w | givingUp w =>
      cases w with
      | startup => exact Or.inr ((absent .restart).mp hl.2.2)
      | restart => exact Or.inl ((absent .startup).mp hl.2.2)
  | ready | degraded => exact Or.inl ((absent .startup).mp (hl.2 .startup))

/-- So at most one is active. -/
theorem Shows.atMostOneBringUp {l : Life} (hl : f.Shows l) : f.AtMostOneBringUp := by
  intro hc
  obtain ⟨h1, h2⟩ := hc
  rcases hl.atMostOne with h | h
  · rw [h] at h1
    exact absurd h1 (by simp [BringUp.active])
  · rw [h] at h2
    exact absurd h2 (by simp [BringUp.active])

/-- A flight starts with its startup task at work. -/
theorem started_shows : (Flight.started prog).Shows (.bringingUp .startup) := ⟨rfl, rfl, rfl⟩

/-- Safe runs are runs of the machine, and in particular ones with one bring-up. -/
theorem reach_life (h : (flightSystem cfg prog).Reach safeRestarts f) :
    Inv prog f ∧ ∃ l, f.Shows l := by
  refine h.invariant (P := fun f => Inv prog f ∧ ∃ l, f.Shows l) ?_ ?_
  · intro _ heq
    subst heq
    exact ⟨started_inv, _, started_shows⟩
  · intro f a f' hc hsafe hx
    obtain ⟨hi, l, hl⟩ := hc
    obtain ⟨e, hstep⟩ := hx
    obtain ⟨l', _, hl'⟩ := next_life hi hl hsafe hstep
    exact ⟨next_inv hi hl'.atMostOneBringUp hstep, l', hl'⟩

/-- With safe restarts, at most one `_bring_up` is active throughout. -/
theorem reach_oneBringUp (h : (flightSystem cfg prog).Reach safeRestarts f) :
    (flightSystem cfg prog).Reach oneBringUp f := by
  refine h.mono ?_
  intro f a f' hr hsafe hc
  obtain ⟨e, hstep⟩ := hc
  obtain ⟨hi, l, hl⟩ := reach_life hr
  obtain ⟨l', _, hl'⟩ := next_life hi hl hsafe hstep
  exact hl'.atMostOneBringUp

/-- Every child but the last is reaped, -/
theorem Accounted.reaped_of_lt (h : Accounted prog f) {k : ChildId} (hk : k + 1 < f.spawns) :
    (f.children k).reaped = true := by
  rcases h.reaped k (Nat.lt_of_succ_lt hk) with hr | hc | ⟨w, hw⟩
  · exact hr
  · exact absurd (h.known k hc) (Nat.ne_of_lt hk)
  · exact absurd (h.taken w k hw) (Nat.ne_of_lt hk)

/-- so a child that lives is the last. -/
theorem Accounted.alive_eq (h : Accounted prog f) {k : ChildId}
    (hk : (f.children k).alive = true) : k + 1 = f.spawns := by
  rcases Nat.lt_trichotomy (k + 1) f.spawns with hlt | heq | hgt
  · rw [h.dead k (h.reaped_of_lt hlt)] at hk
    exact absurd hk (by simp)
  · exact heq
  · rw [h.spawned k (Nat.lt_succ_iff.mp hgt)] at hk
    exact absurd hk (by simp [Child.unborn])

theorem Shows.oneBringUp {l : Life} (hi : Inv prog f) (hl : f.Shows l) : f.OneBringUp := by
  refine ⟨hl.atMostOne, fun hs => ?_, fun k hk => hi.accounted.reaped_of_lt hk, fun j k hj hk => ?_⟩
  · cases l with
    | bringingUp w =>
        refine ⟨w, fun hc => ?_⟩
        have := hl.2.1
        rw [hc] at this
        exact absurd this (by simp [BringUp.standing])
    | givingUp w | ready | degraded =>
        rcases hs with hs | hs <;> exact absurd (hl.1.symm.trans hs) (by simp)
  · exact Nat.succ.inj ((hi.accounted.alive_eq hj).trans (hi.accounted.alive_eq hk).symm)

/-! ### Every other restart breaks it

The other direction has two cases, as the condition has two parts.  A restart beside the first
bring-up gives two tasks at once.  One that comes while a fatal message is being cleaned up after
is scheduled beside the startup task, or taken for the restart task that is cleaning up; in the
latter case the flight is left RESTARTING, with no task, as soon as that one returns.
-/

/-- A step is a run of one step. -/
theorem next_path {a : FlightAction σ} {e : Effects} (h : f.next cfg prog a = some (f', e)) :
    (flightSystem cfg prog).Path f f' := .single ⟨a, e, h⟩

/-- The restart that is taken for the task cleaning up: once that returns, the flight
is RESTARTING and nobody restarts it. -/
theorem cleaned_stuck {reason : String} {done : Bool} (hstate : f.state = .restarting)
    (hstartup : f.tasks .startup = .absent) (hw : f.tasks .restart = .reaping (some reason) done)
    (hex : done = true ∨ f.executor = [.reap .restart] ∨
      ∃ taken, f.executor = [.reaping .restart taken]) :
    ∃ f', (flightSystem cfg prog).Path f f' ∧ ¬ f'.OneBringUp := by
  have hend : ∀ g : Flight κ, g.state = .restarting → g.tasks .startup = .absent →
      g.tasks .restart = .reaping (some reason) true →
      ∃ f', (flightSystem cfg prog).Path g f' ∧ ¬ f'.OneBringUp := by
    intro g hs h1 h2
    refine ⟨endBringUp .restart (setReady g), next_path (a := .resumeBringUp .restart) (e := {}) ?_, ?_⟩
    · simp only [next, resumeBringUp, h2]
    · intro hgood
      obtain ⟨w, hw⟩ := hgood.bringingUp (Or.inr hs)
      cases w with
      | startup => exact hw h1
      | restart => exact hw rfl
  have hreaping : ∀ g : Flight κ, g.state = .restarting → g.tasks .startup = .absent →
      g.tasks .restart = .reaping (some reason) false →
      (∃ taken, g.executor = [.reaping .restart taken]) →
      ∃ f', (flightSystem cfg prog).Path g f' ∧ ¬ f'.OneBringUp := by
    intro g hs h1 h2 h
    obtain ⟨taken, hg⟩ := h
    have hstep : ∃ g', g.next cfg prog (.runExecutor none) = some (g', {}) ∧
        g'.state = .restarting ∧ g'.tasks .startup = .absent ∧
        g'.tasks .restart = .reaping (some reason) true := by
      cases taken with
      | none =>
          refine ⟨_, by simp only [next, runExecutor, hg, quietly, Option.map_some]; rfl, ?_⟩
          simp only [deliverReaped, h2]
          exact ⟨hs, h1, rfl⟩
      | some k =>
          refine ⟨_, by simp only [next, runExecutor, hg, quietly, Option.map_some]; rfl, ?_⟩
          simp only [deliverReaped, show (g.setChild k _).tasks = g.tasks from rfl, h2]
          exact ⟨hs, h1, rfl⟩
    obtain ⟨g', hnext, hs', h1', h2'⟩ := hstep
    obtain ⟨f', hpath, hbad⟩ := hend g' hs' h1' h2'
    exact ⟨f', (next_path hnext).trans hpath, hbad⟩
  cases done with
  | true => exact hend f hstate hstartup hw
  | false =>
      rcases hex with hc | hreap | htaken
      · exact absurd hc (by simp)
      · have hnext : f.next cfg prog (.runExecutor none) = some
            ({ f with executor := [.reaping .restart f.child], child := none }, {}) := by
          simp only [next, runExecutor, hreap, quietly, Option.map_some]
        obtain ⟨f', hpath, hbad⟩ := hreaping
          { f with executor := [.reaping .restart f.child], child := none } hstate hstartup hw
          ⟨_, rfl⟩
        exact ⟨f', (next_path hnext).trans hpath, hbad⟩
      · exact hreaping f hstate hstartup hw htaken

/-- Two bring-up tasks are one too many. -/
theorem not_oneBringUp_of_two (hstartup : f.tasks .startup ≠ .absent)
    (hrestart : f.tasks .restart ≠ .absent) : ¬ f.OneBringUp := by
  intro hgood
  rcases hgood.atMostOne with hc | hc
  · exact hstartup hc
  · exact hrestart hc

/-- Where no restart is under way, one is scheduled, whatever the startup task does. -/
theorem startRestart_schedules (hrun : f.state ≠ .stopping) (habsent : f.tasks .restart = .absent) :
    (startRestart f).tasks .startup = f.tasks .startup ∧
      (startRestart f).tasks .restart = .scheduled := by
  unfold startRestart
  rw [if_neg hrun]
  dsimp only
  rw [if_pos habsent]
  exact ⟨rfl, rfl⟩

/-- A restart that is scheduled beside the startup task is a second one. -/
theorem startRestart_two (hrun : f.state ≠ .stopping) (hstartup : f.tasks .startup ≠ .absent)
    (habsent : f.tasks .restart = .absent) : ¬ (startRestart f).OneBringUp := by
  obtain ⟨h1, h2⟩ := startRestart_schedules hrun habsent
  refine not_oneBringUp_of_two ?_ ?_
  · rw [h1]
    exact hstartup
  · rw [h2]
    simp

/-- The first bring-up is under way, and a second is scheduled beside it. -/
theorem restart_beside_bringUp {reason : String} (hl : f.Shows (.bringingUp .startup))
    (hin : f.inFlight = 0) : ¬ (f.requestRestart reason).1.OneBringUp := by
  have hstarting : f.state = .starting := hl.1
  have hkilled : (killChild f).tasks = f.tasks ∧ (killChild f).state = f.state := by
    unfold killChild
    split <;> exact ⟨rfl, rfl⟩
  have heq : (f.requestRestart reason).1 = startRestart (noteLoss reason none (killChild f)) := by
    unfold requestRestart
    rw [if_neg (by rw [hstarting]; simp), if_pos hin]
  rw [heq]
  refine startRestart_two ?_ ?_ ?_
  · rw [show (noteLoss reason none (killChild f)).state = f.state from hkilled.2, hstarting]
    simp
  · rw [show (noteLoss reason none (killChild f)).tasks = f.tasks from hkilled.1]
    intro hc
    have hstanding := hl.2.1
    rw [hc] at hstanding
    exact absurd hstanding (by simp [BringUp.standing])
  · rw [show (noteLoss reason none (killChild f)).tasks = f.tasks from hkilled.1]
    exact standing_eq_none.mp hl.2.2

/-- What a restart of a DEGRADED flight starts from. -/
theorem requestRestart_degraded {reason : String} (h : f.state = .degraded) :
    (f.requestRestart reason).1 = startRestart
      { f with restartAttempts := 0, degradedReason := none, fatalReason := none } := by
  unfold requestRestart
  rw [if_pos h]

/-- The startup task is cleaning up, and a restart is scheduled beside it. -/
theorem restart_beside_cleaning {reason : String} (hl : f.Shows (.givingUp .startup)) :
    ¬ (f.requestRestart reason).1.OneBringUp := by
  rw [requestRestart_degraded hl.1]
  refine startRestart_two (f := { f with
    restartAttempts := 0, degradedReason := none, fatalReason := none }) ?_ ?_ ?_
  · show f.state ≠ .stopping
    rw [hl.1]
    simp
  · intro hc
    have hstanding := hl.2.1
    rw [show f.tasks .startup = .absent from hc] at hstanding
    exact absurd hstanding (by simp [BringUp.standing])
  · exact standing_eq_none.mp hl.2.2

theorem reaping_of_givingUp (h : (f.tasks w).standing = .givingUp) :
    ∃ fatal done, f.tasks w = .reaping (some fatal) done := by
  cases hb : f.tasks w with
  | reaping fatal done =>
      cases fatal with
      | some fatal => exact ⟨fatal, done, rfl⟩
      | none =>
          rw [hb] at h
          exact absurd h (by simp [BringUp.standing])
  | _ =>
      rw [hb] at h
      exact absurd h (by simp [BringUp.standing])

/-- The restart task is cleaning up, and is taken for the one that was asked for. -/
theorem restart_taken_for_cleaning {reason : String} (hi : Inv prog f)
    (hl : f.Shows (.givingUp .restart)) :
    ∃ f', (flightSystem cfg prog).Path (f.requestRestart reason).1 f' ∧ ¬ f'.OneBringUp := by
  obtain ⟨fatal, done, hfd⟩ := reaping_of_givingUp hl.2.1
  have hdoing : Doing prog .restart f (.reaping (some fatal) done) := by
    cases hi.serial with
    | idle inactive _ _ _ _ | caller _ _ _ _ _ _ inactive _ _ _ _ =>
        have hactive := inactive .restart
        rw [hfd] at hactive
        exact absurd hactive (by simp [BringUp.active])
    | bringUp w' hactive _ _ hd =>
        cases w' with
        | startup =>
            have habsent : f.tasks .startup = .absent := standing_eq_none.mp hl.2.2
            rw [habsent] at hactive
            exact absurd hactive (by simp [BringUp.active])
        | restart => exact hfd ▸ hd
  have hgo : startRestart
      { f with restartAttempts := 0, degradedReason := none, fatalReason := none } =
      { f with
        restartAttempts := 0, degradedReason := none, fatalReason := none
        state := .restarting, readyEvent := false } := by
    unfold startRestart
    rw [if_neg (by simp [hl.1])]
    dsimp only
    rw [if_neg (by rw [hfd]; simp)]
  rw [requestRestart_degraded hl.1, hgo]
  refine cleaned_stuck rfl (standing_eq_none.mp hl.2.2) hfd ?_
  cases done with
  | true => exact Or.inl rfl
  | false =>
      rcases hdoing.1 with h1 | ⟨_, taken, h2⟩
      · exact Or.inr (Or.inl h1)
      · exact Or.inr (Or.inr ⟨taken, h2⟩)

/-- A restart that comes at a bad moment breaks it, at once or by the next await. -/
theorem unsafe_restart {reason : String} (hi : Inv prog f) {l : Life} (hl : f.Shows l)
    (hbad : ¬ f.SafeToRestart) :
    ∃ f', (flightSystem cfg prog).Path (f.requestRestart reason).1 f' ∧ ¬ f'.OneBringUp := by
  rcases not_and_or.mp hbad with hbad | hbad
  · obtain ⟨hstarting, hin⟩ := not_not.mp hbad
    obtain rfl : l = .bringingUp .startup := by
      cases l with
      | bringingUp w =>
          cases w with
          | startup => rfl
          | restart => exact absurd (hl.1.symm.trans hstarting) (by simp [BringUpTask.state])
      | givingUp w | ready | degraded => exact absurd (hl.1.symm.trans hstarting) (by simp)
    exact ⟨_, .refl, restart_beside_bringUp hl hin⟩
  · obtain ⟨-, w, hw⟩ := not_not.mp hbad
    obtain rfl : l = .givingUp w := by
      rcases hl.standing_other (w := w) (by rw [hw]; simp) with rfl | rfl
      · exact absurd (hl.2.1.symm.trans hw) (by simp)
      · rfl
    cases w with
    | startup => exact ⟨_, .refl, restart_beside_cleaning hl⟩
    | restart => exact restart_taken_for_cleaning hi hl

/-- **A flight has exactly one bring-up in every run with safe restarts, and in no
other**: a restart that comes at a bad moment leads to a state where it does not. -/
theorem exactly_one_bring_up (h : (flightSystem cfg prog).Reach safeRestarts f) :
    f.OneBringUp ∧
      ∀ reason, ¬ f.SafeToRestart →
        ∃ f', (flightSystem cfg prog).Path (f.requestRestart reason).1 f' ∧ ¬ f'.OneBringUp := by
  obtain ⟨hi, l, hl⟩ := reach_life h
  exact ⟨hl.oneBringUp hi, fun reason hbad => unsafe_restart hi hl hbad⟩

/-- An operator restarts a flight in READY; its next child dies at a command, and the child after
that sends a fatal first message, which the restart has only begun to clean up after. -/
def restartedThenFatal : List (FlightAction Msg) :=
  [.resumeBringUp .startup, .runExecutor none, .runExecutor none, .resumeBringUp .startup,
    .boot 0 .hello, .runExecutor none, .resumeBringUp .startup,
    .requestRestart "operator", .resumeBringUp .restart, .runExecutor none, .runExecutor none,
    .resumeBringUp .restart, .boot 1 .hello, .runExecutor none, .resumeBringUp .restart,
    .call 0 (.other "render_plots"), .runExecutor none, .die 1, .runExecutor (some "exit code -9"),
    .resumeCaller, .resumeBringUp .restart, .runExecutor none, .runExecutor none,
    .resumeBringUp .restart, .boot 2 (.fatal "no worker"), .runExecutor none,
    .resumeBringUp .restart]

/-- A restart comes in READY alone. -/
def restartsWhenReady (f : Flight κ) : FlightAction σ → Bool
  | .requestRestart _ => decide (f.state = .ready)
  | _ => true

theorem restartsWhenReady_safe {a : FlightAction σ} (h : f.restartsWhenReady a = true) :
    safeRestarts f a f' := by
  rintro reason rfl
  have hready : f.state = .ready := of_decide_eq_true h
  exact ⟨fun hs => absurd (hready.symm.trans hs.1) (by simp),
    fun hs => absurd (hready.symm.trans hs.1) (by simp)⟩

/-- Two losses and three children into a run there is one bring-up, under way in the restart, and
one more restart now would make it two. -/
theorem exactly_one_bring_up_cleaning :
    ∃ f : Flight Unit, f.spawns = 3 ∧ (f.tasks .restart).active = true ∧ f.OneBringUp ∧
      ∃ f', (flightSystem .standard .scripted).Path (f.requestRestart "operator").1 f' ∧
        ¬ f'.OneBringUp := by
  obtain ⟨f, hf⟩ : ∃ f, System.followWhen restartsWhenReady
      (fun f a => (f.next .standard .scripted a).map Prod.fst) restartedThenFatal
      (Flight.started .scripted) = some f := ⟨_, rfl⟩
  have hseen : f.spawns = 3 ∧ (f.tasks .restart).active = true ∧ f.state = .degraded ∧
      (f.tasks .restart).standing = .givingUp := by
    obtain rfl := Option.some.inj hf
    exact ⟨rfl, rfl, rfl, rfl⟩
  have hreach : (flightSystem .standard .scripted).Reach safeRestarts f := by
    refine System.Reach.followWhen (fun f a f' hstep => ?_) (fun _ _ _ => restartsWhenReady_safe)
      (.init rfl) hf
    obtain ⟨⟨g, e⟩, hg, rfl⟩ := Option.map_eq_some_iff.mp hstep
    exact ⟨e, hg⟩
  obtain ⟨hgood, hbad⟩ := exactly_one_bring_up hreach
  exact ⟨f, hseen.1, hseen.2.1, hgood,
    hbad "operator" fun hsafe => hsafe.2 ⟨hseen.2.2.1, .restart, hseen.2.2.2⟩⟩

/-- **Two bring-ups at once.**  The operator restarts a flight whose first bring-up waits
for its reap: a second `_bring_up` is entered beside it. -/
theorem two_bring_ups :
    ∃ f : Flight Unit, (flightSystem .standard .scripted).Reach System.always f ∧
      (f.tasks .startup).active = true ∧ (f.tasks .restart).active = true ∧ ¬ f.OneBringUp := by
  let run : List (FlightAction Msg) :=
    [.resumeBringUp .startup, .requestRestart "operator", .resumeBringUp .restart]
  obtain ⟨f, hf⟩ : ∃ f, Flight.follow .standard .scripted run (Flight.started .scripted) = some f :=
    ⟨_, rfl⟩
  have hboth : (f.tasks .startup).active = true ∧ (f.tasks .restart).active = true := by
    obtain rfl := Option.some.inj hf
    exact ⟨rfl, rfl⟩
  refine ⟨f, Flight.follow_reach hf, hboth.1, hboth.2, fun hgood => ?_⟩
  rcases hgood.atMostOne with hc | hc
  · exact absurd hboth.1 (by rw [hc]; simp [BringUp.active])
  · exact absurd hboth.2 (by rw [hc]; simp [BringUp.active])

end Flight

end DonutServer
