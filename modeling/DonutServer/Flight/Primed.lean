/-
What `primed_args` says of the current child.

`_primed_args` is written when a prepare succeeds and when a replay of it does, and
cleared when a replay is refused.  A third thing can become of it: after a loss that
a prepare provoked the replay is skipped, and the flight comes up READY with the
command of an earlier child still in place.  In every run where that does not
happen, and no operator's restart comes at a bad moment, READY means that the child
serving now is the one that acknowledged it last.
-/
import DonutServer.Flight.Lifecycle

namespace DonutServer

open Function

variable {κ σ : Type} {prog : ChildProgram κ σ} {cfg : CoordSettings}

namespace Flight

variable {f f' : Flight κ} {w : BringUpTask}

/-! ### What is to be shown

`acked` is what an observer would write down: for each child, the prepare it acknowledged last.
The claim compares `_primed_args` with the entry of the current child, in READY.  Outside READY the
two may differ, since a child is replaced before it is told anything.
-/

/-- In READY, what is primed is what the current child acknowledged last.  An answer is an
acknowledgement from the moment the front-end takes it: while it still lies in the pipe no task of
the front-end has seen it, and what is primed cannot speak of it yet. -/
def Truthful (f : Flight κ) : Prop :=
  f.state = .ready → f.primedArgs = none ∨ ∃ k, f.child = some k ∧ f.acked k = f.primedArgs

/-- A hello is about to be read while a prepare is remembered and a prepare provoked
the last loss. -/
def SkipsReplay (f : Flight κ) (w : BringUpTask) : Prop :=
  (∃ k s, f.tasks w = .hello k (some (.reply s)) ∧ s.msg = .hello) ∧
    f.primedArgs ≠ none ∧ f.lossProvokedBy = some "prepare"

/-- Runs in which restarts are safe and no replay is skipped with something to replay. -/
def replays (f : Flight κ) (a : FlightAction σ) (f' : Flight κ) : Prop :=
  safeRestarts f a f' ∧ ∀ w, a = .resumeBringUp w → ¬ f.SkipsReplay w

/-- What the truth rests on: nobody has acknowledged anything before its hello. -/
structure Told (f : Flight κ) : Prop where
  truthful : f.Truthful
  unborn : ∀ k, f.spawns ≤ k → f.acked k = none
  silent : ∀ w k out, f.tasks w = .hello k out → f.acked k = none

/-! ### Steps that leave the books alone

`_primed_args` and `acked` are written in a handful of places, all of them where a reply is read.
Every other step keeps `Told`, for it acknowledges nothing, awaits no new hello, and enters READY
only from READY.
-/

/-- Nothing acknowledged, nobody new awaited, and READY only where it was. -/
theorem Told.keep (h : Told f) (hready : f'.state = .ready → f.state = .ready ∧
      f'.primedArgs = f.primedArgs ∧ f'.child = f.child)
    (hacked : f'.acked = f.acked) (hspawns : f'.spawns = f.spawns)
    (hhello : ∀ w k out, f'.tasks w = .hello k out → ∃ out', f.tasks w = .hello k out') :
    Told f' := by
  refine ⟨fun hr => ?_, ?_, fun w k out hw => ?_⟩
  · obtain ⟨hr', hp, hc⟩ := hready hr
    rw [hp, hc, hacked]
    exact h.truthful hr'
  · rw [hspawns, hacked]
    exact h.unborn
  · obtain ⟨out', hw'⟩ := hhello w k out hw
    rw [hacked]
    exact h.silent w k out' hw'

/-- The same for a step that touches none of the fields looked at. -/
theorem Told.same (h : Told f)
    (hsame : (f'.state, f'.primedArgs, f'.child, f'.acked, f'.spawns, f'.tasks) =
      (f.state, f.primedArgs, f.child, f.acked, f.spawns, f.tasks)) : Told f' := by
  simp only [Prod.mk.injEq] at hsame
  obtain ⟨hstate, hprimed, hchild, hacked, hspawns, htasks⟩ := hsame
  exact h.keep (fun hr => ⟨hstate ▸ hr, hprimed, hchild⟩) hacked hspawns
    fun w k out hw => ⟨out, htasks ▸ hw⟩

/-- The same for a step that replaces one task's suspension by one that awaits no hello. -/
theorem Told.setTask {b : BringUp} (h : Told f) (hb : ∀ k out, b ≠ .hello k out) :
    Told (f.setTask w b) := by
  refine h.keep (fun hr => ⟨hr, rfl, rfl⟩) rfl rfl fun w' k out hw' => ?_
  by_cases hww : w' = w
  · subst hww
    rw [setTask_self] at hw'
    exact absurd hw' (hb k out)
  · exact ⟨out, by simpa [Flight.setTask, hww] using hw'⟩

theorem Told.endBringUp (h : Told f) : Told (endBringUp w f) := by
  cases w with
  | startup => exact h.setTask (by simp)
  | restart =>
      have hset : Told (f.setTask .restart .absent) := h.setTask (by simp)
      exact hset.same rfl

theorem Told.setReady (h : Told f) : Told (setReady f) := h.same rfl

theorem Told.state {s : CoordState} (h : Told f) (hs : s ≠ .ready) :
    Told { f with state := s } :=
  h.keep (fun hr => absurd hr hs) rfl rfl fun _ _ out hw => ⟨out, hw⟩

theorem Told.bringUpLoop (h : Told f) : Told (bringUpLoop cfg w f) := by
  unfold Flight.bringUpLoop
  split
  · exact h.endBringUp
  split
  · exact Told.endBringUp (Told.setReady ((h.state (s := .degraded) (by simp)).same rfl))
  · dsimp only
    split
    · exact Told.setTask (h.same rfl) (by simp)
    · exact Told.setTask (h.same rfl) (by simp)

theorem Told.startRestart (h : Told f) : Told (startRestart f) := by
  unfold Flight.startRestart
  split
  · exact h
  · have hleft : Told { f with state := .restarting, readyEvent := false } :=
      (h.state (s := .restarting) (by simp)).same rfl
    dsimp only
    split
    · exact hleft.setTask (by simp)
    · exact hleft

theorem Told.killChild (h : Told f) : Told (killChild f) := by
  unfold Flight.killChild
  split
  · exact h
  · exact h.same rfl

theorem Told.exchange {c : CallId} {command : Command} (h : Told f) :
    Told (f.exchange c command).1 := by
  unfold Flight.exchange
  split
  · exact h.same rfl
  · exact h.same rfl

theorem Told.underLock {c : CallId} {command : Command} (h : Told f) :
    Told (f.underLock c command).1 := by
  unfold Flight.underLock
  split
  · exact h.exchange
  split
  · exact h.same rfl
  · exact h.same rfl

theorem Told.requestRestart {reason : String} (h : Told f) :
    Told (f.requestRestart reason).1 := by
  unfold Flight.requestRestart
  split
  · exact Told.startRestart (h.same rfl)
  split
  · exact Told.startRestart (h.killChild.same rfl)
  · exact h.killChild

/-- A hello that has come back was awaited before. -/
theorem Told.heard {k : ChildId} {out : Option Outcome} (h : Told f) (hw : f.tasks w = .hello k none) :
    Told (f.setTask w (.hello k out)) := by
  refine h.keep (fun hr => ⟨hr, rfl, rfl⟩) rfl rfl fun w' k' out' hw' => ?_
  by_cases hww : w' = w
  · subst hww
    rw [setTask_self] at hw'
    obtain ⟨rfl, _⟩ := BringUp.hello.inj hw'
    exact ⟨none, hw⟩
  · exact ⟨out', by simpa [Flight.setTask, hww] using hw'⟩

theorem Told.deliver {o : Client} {out : Outcome} (h : Told f) : Told (deliver o out f) := by
  unfold Flight.deliver
  split
  · split
    · rename_i hw
      exact h.heard hw
    · exact h.setTask (by simp)
    · exact h
  · split
    · split
      · exact h.same rfl
      · exact h
    · exact h

theorem Told.deliverReaped (h : Told f) : Told (deliverReaped w f) := by
  unfold Flight.deliverReaped
  split
  · exact h.setTask (by simp)
  · exact h

/-- The thread takes a child out of `_proc` only while the flight is not READY. -/
theorem Told.runExecutor {fails : Option String} {l : Life} (h : Told f) (hi : Inv prog f)
    (hl : f.Shows l) (hstep : f.runExecutor fails = some f') : Told f' := by
  cases runExecutor_executed hstep with
  | reap w rest hjob =>
      have hnot : f.state ≠ .ready := by
        intro hr
        have hnone : ∀ w, (f.tasks w).standing = .none := by
          obtain rfl := hl.eq_ready hr
          exact hl.2
        cases hi.serial with
        | idle _ _ hempty _ _ => exact absurd (hjob.symm.trans hempty) (by simp)
        | bringUp w' hactive _ _ _ => exact standing_of_active hactive (hnone w')
        | caller c command k tag out _ _ _ _ _ hx =>
            rcases out with _ | _ | _
            · rcases hx with ⟨he, _⟩ | ⟨he, _⟩ <;> exact absurd (hjob.symm.trans he) (by simp)
            · exact absurd (hjob.symm.trans hx.1) (by simp)
            · exact absurd (hjob.symm.trans hx) (by simp)
      exact h.keep (fun hr => absurd hr hnot) rfl rfl fun _ _ out hw => ⟨out, hw⟩
  | reapedNone w rest hjob => exact Told.deliverReaped (h.same rfl)
  | reaped w k rest hjob => exact Told.deliverReaped (h.same rfl)
  | unwritten o k tag command rest reason hjob hdead => exact Told.deliver (h.same rfl)
  | written o k tag command rest hjob => exact h.same rfl
  | lost o k timed rest reason hjob hmay => exact Told.deliver (h.same rfl)
  | replied o k timed rest s more hjob hout => exact Told.deliver (h.same rfl)

/-! ### Steps that read a reply

A reply that is read is the answer of the current child, by the invariant of the pipe, and the
command it answers is the one that is now remembered.  So both books get the same entry in one
step.
-/

/-- What handing over the answer to `command` acknowledges. -/
theorem acknowledge_answers {k : ChildId} {tag : Tag} {command : Command} {c : Child κ} {s : Sent}
    (ha : Answers prog k tag command c s) :
    (∃ args, command = .prepare args ∧ s.msg.ok = true ∧
        f.acknowledge s = update f.acked k (some args)) ∨
      ((∀ args, command = .prepare args → s.msg.ok = false) ∧ f.acknowledge s = f.acked) := by
  unfold acknowledge
  rw [ha.answers, ha.sender]
  cases command with
  | prepare args =>
      cases hok : s.msg.ok with
      | true => exact Or.inl ⟨args, rfl, rfl, rfl⟩
      | false => exact Or.inr ⟨fun _ _ => rfl, rfl⟩
  | _ => exact Or.inr ⟨fun _ hc => absurd hc (by simp), rfl⟩

/-- The current child acknowledges a prepare: nobody is awaited, and it is spawned. -/
theorem Told.acknowledged {k : ChildId} {args : PrepareCommand} {g : Flight κ} (h : Told f)
    (hk : k < f.spawns) (hnobody : ∀ w k out, g.tasks w ≠ .hello k out)
    (hprimed : g.primedArgs = some args) (hacked : g.acked = update f.acked k (some args))
    (hgchild : g.child = some k) (hspawns : g.spawns = f.spawns) : Told g := by
  refine ⟨fun _ => Or.inr ⟨k, hgchild, ?_⟩, fun j hj => ?_, fun w j out hw => ?_⟩
  · rw [hacked, hprimed, update_self]
  · have hj' : f.spawns ≤ j := hspawns ▸ hj
    rw [hacked, update_of_ne (Nat.ne_of_gt (Nat.lt_of_lt_of_le hk hj'))]
    exact h.unborn j hj'
  · exact absurd hw (hnobody w j out)

/-- Coming up writes no record of what was prepared. -/
theorem readyUp_books {g : Flight κ} (hg : g = readyUp w f) :
    g.primedArgs = f.primedArgs ∧ g.acked = f.acked ∧ g.child = f.child ∧ g.spawns = f.spawns := by
  subst hg
  cases w <;> exact ⟨rfl, rfl, rfl, rfl⟩

/-- Behind it nobody waits for a first message. -/
theorem readyUp_nobody (hother : ∀ k out, f.tasks w.other ≠ .hello k out) :
    ∀ w' k out, (readyUp w f).tasks w' ≠ .hello k out := by
  intro w' k out
  by_cases hww : w' = w
  · subst hww
    cases w' <;> simp [readyUp, endBringUp, Flight.setTask]
  · obtain rfl := eq_other hww
    have hkeep : (readyUp w f).tasks w.other = f.tasks w.other := endBringUp_other
    rw [hkeep]
    exact hother k out

/-- A loss that a prepare provoked is not followed by a replay. -/
theorem reprime_skips (hprovoked : f.lossProvokedBy = some "prepare") :
    reprime w f = readyUp w f := by
  unfold reprime
  split
  · rfl
  · rw [if_pos hprovoked]

/-- READY with nothing primed. -/
theorem Told.unprimed (h : Told f) (hnobody : ∀ k out, f.tasks w.other ≠ .hello k out)
    (hprimed : f.primedArgs = none) : Told (readyUp w f) := by
  obtain ⟨hp, ha, _, hs⟩ := readyUp_books (w := w) (f := f) rfl
  refine ⟨fun _ => Or.inl (hp.trans hprimed), fun k hk => ?_, fun w' k out hw => ?_⟩
  · rw [ha]
    exact h.unborn k (hs ▸ hk)
  · exact absurd hw (readyUp_nobody hnobody w' k out)

/-- A prepare that a caller sent, or anything else it sent, comes back. -/
theorem Told.afterExchange {c : CallId} {command : Command} {k : ChildId} {tag : Tag}
    {out : Outcome} (h : Told f) (hi : Inv prog f)
    (howner : f.lock.owner = some (.call c command (.exchanging k tag (some out)))) :
    Told (f.afterExchange c command out).1 := by
  obtain ⟨inactive, hready, hchild, _, hx⟩ := hi.serial.served howner
  have hnobody : ∀ w k out, f.tasks w ≠ .hello k out := by
    intro w k out hc
    have := inactive w
    rw [hc] at this
    exact absurd this (by simp [BringUp.active])
  cases out with
  | lost reason =>
      have hgo : Told (Flight.startRestart
          (noteLoss reason (some command.cmd) { f with inFlight := f.inFlight - 1 })) :=
        Told.startRestart (h.same rfl)
      exact hgo.same rfl
  | reply s =>
      obtain ⟨_, _, _, ha⟩ := hx
      have hk : k < f.spawns := hi.accounted.known k hchild ▸ Nat.lt_succ_self k
      rcases acknowledge_answers (f := f) ha with ⟨args, rfl, hok, hack⟩ | ⟨hno, hack⟩
      · simp only [Flight.afterExchange, hok, if_true]
        exact h.acknowledged hk hnobody rfl hack hchild rfl
      · simp only [Flight.afterExchange]
        have hbooks := congrArg
          (fun acked => (f.state, f.primedArgs, f.child, acked, f.spawns, f.tasks)) hack
        cases command with
        | prepare args =>
            dsimp only
            rw [if_neg (by rw [hno args rfl]; simp)]
            exact h.same hbooks
        | _ => exact h.same hbooks

/-! ### Steps of a bring-up

A new child has acknowledged nothing, so READY may be entered with something primed only behind a
replay.  That is the step the condition of the runs speaks of.
-/

/-- A prepare is replayed, or there is none, or it is not the one that provoked the loss. -/
theorem Told.reprime {k : ChildId} (h : Told f) (hchild : f.child = some k)
    (hother : ∀ k out, f.tasks w.other ≠ .hello k out)
    (hskip : f.primedArgs = none ∨ f.lossProvokedBy ≠ some "prepare") : Told (reprime w f) := by
  unfold Flight.reprime
  split
  · rename_i hnone
    exact h.unprimed hother hnone
  · rename_i args hsome
    split
    · rename_i hprovoked
      rcases hskip with hc | hc
      · exact absurd (hsome.symm.trans hc) (by simp)
      · exact absurd hprovoked hc
    split
    · rename_i hnone
      exact absurd (hnone.symm.trans hchild) (by simp)
    · exact Told.setTask (h.same rfl) (by simp)

/-- A child that was only just spawned has acknowledged nothing. -/
theorem Told.spawnChild (h : Told f) (hready : f.state ≠ .ready) :
    Told (spawnChild prog w f) := by
  refine ⟨fun hr => absurd hr hready, fun k hk => ?_, fun w' k out hw => ?_⟩
  · exact h.unborn k (Nat.le_of_succ_le hk)
  · by_cases hww : w' = w
    · subst hww
      have hw' : update f.tasks w' (.hello f.spawns none) w' = .hello k out := hw
      rw [update_self] at hw'
      obtain ⟨rfl, _⟩ := BringUp.hello.inj hw'
      exact h.unborn f.spawns (Nat.le_refl _)
    · have hw' : update f.tasks w (.hello f.spawns none) w' = .hello k out := hw
      rw [update_of_ne hww] at hw'
      exact h.silent w' k out hw'

/-- The first message has come, and the replay is not skipped. -/
theorem Told.afterHello {k : ChildId} {out : Outcome} (h : Told f)
    (hother : ∀ k out, f.tasks w.other ≠ .hello k out)
    (hd : Doing prog w f (.hello k (some out)))
    (hskip : ∀ s, out = .reply s → s.msg = .hello →
      f.primedArgs = none ∨ f.lossProvokedBy ≠ some "prepare") :
    Told (afterHello cfg w out f).1 := by
  cases out with
  | lost reason => exact Told.bringUpLoop (h.same rfl)
  | reply s =>
      obtain ⟨_, hchild, _, _, ⟨hmsg, _, _⟩ | ⟨error, hmsg⟩⟩ := hd
      · simp only [Flight.afterHello, hmsg]
        exact Told.reprime (h.same rfl) hchild hother (hskip s rfl hmsg)
      · simp only [Flight.afterHello, hmsg]
        exact Told.setTask ((h.state (s := .degraded) (by simp)).same rfl) (by simp)

/-- A replay was answered: the child has acknowledged it, or the flight is unprimed. -/
theorem Told.afterReprime {k : ChildId} {tag : Tag} {args : PrepareCommand} {out : Outcome}
    (h : Told f) (hi : Inv prog f) (hother : ∀ k out, f.tasks w.other ≠ .hello k out)
    (hd : Doing prog w f (.repriming k tag args (some out))) :
    Told (afterReprime cfg w args out f).1 := by
  cases out with
  | lost reason => exact Told.bringUpLoop (h.same rfl)
  | reply s =>
      obtain ⟨hchild, _, _, _, _, ha⟩ := hd
      have hk : k < f.spawns := hi.accounted.known k hchild ▸ Nat.lt_succ_self k
      simp only [Flight.afterReprime]
      rcases acknowledge_answers (f := f) ha with ⟨_, heq, hok, hack⟩ | ⟨hno, hack⟩
      · obtain rfl := Command.prepare.inj heq
        rw [if_pos hok]
        obtain ⟨hp, hacked, hc, hs⟩ := readyUp_books (w := w)
          (f := notePrepared args s.msg (handOver s { f with inFlight := f.inFlight - 1 })) rfl
        exact h.acknowledged hk (readyUp_nobody hother) hp (hacked.trans hack)
          (hc.trans hchild) hs
      · rw [if_neg (by rw [hno args rfl]; simp)]
        refine Told.unprimed ⟨fun _ => Or.inl rfl, fun k hk => ?_, fun w' k out hw => ?_⟩ hother rfl
        · show f.acknowledge s k = none
          rw [hack]
          exact h.unborn k hk
        · show f.acknowledge s k = none
          rw [hack]
          exact h.silent w' k out hw

/-- A bring-up task goes on. -/
theorem Told.resumeBringUp {e : Effects} {l : Life} (h : Told f) (hi : Inv prog f)
    (hl : f.Shows l) (hskip : ¬ f.SkipsReplay w)
    (hstep : f.resumeBringUp cfg prog w = some (f', e)) : Told f' := by
  obtain ⟨habsent, hready⟩ := hl.acting hstep
  have hother : ∀ k out, f.tasks w.other ≠ .hello k out := by
    intro k out hc
    rw [habsent] at hc
    exact absurd hc (by simp)
  cases resumeBringUp_resumed hstep with
  | startup htask => exact h.bringUpLoop
  | restart htask hstartup hfree => exact Told.bringUpLoop (h.same rfl)
  | queued htask hstartup =>
      have hset : Told (f.setTask .restart .queued) := h.setTask (by simp)
      exact hset.same rfl
  | backoff w htask => exact Told.setTask (h.same rfl) (by simp)
  | reaped w htask => exact h.spawnChild hready
  | gaveUp w fatal htask => exact h.setReady.endBringUp
  | hello w k out htask =>
      have hd := hi.doing (w := w) (by rw [htask]; rfl)
      rw [htask] at hd
      refine h.afterHello hother hd fun s hs hmsg => ?_
      subst hs
      by_contra hc
      exact hskip ⟨⟨k, s, htask, hmsg⟩, not_or.mp hc |>.1, not_not.mp (not_or.mp hc).2⟩
  | reprimed w k tag args out htask =>
      have hd := hi.doing (w := w) (by rw [htask]; rfl)
      rw [htask] at hd
      exact h.afterReprime hi hother hd

/-! ### Every run that replays

Put together, the steps keep `Told` in every run that skips no replay; and a step that does skip
one leaves the flight READY with a prepare that its child, just spawned, has not seen.
-/

/-- At first nothing is primed. -/
theorem started_told : Told (Flight.started prog) := by
  refine ⟨fun hr => absurd hr (by simp [Flight.started]), fun _ _ => rfl, fun w k out hw => ?_⟩
  cases w <;> exact absurd hw (by simp [Flight.started])

/-- The step lemma. -/
theorem next_told {a : FlightAction σ} {e : Effects} {l : Life} (h : Told f) (hi : Inv prog f)
    (hl : f.Shows l) (hok : replays f a f') (hstep : f.next cfg prog a = some (f', e)) :
    Told f' := by
  cases ha : a.child? with
  | some k =>
      obtain ⟨_, c', _, rfl⟩ := next_child ha hstep
      exact h.same rfl
  | none =>
      cases a with
      | call c command =>
          obtain rfl := congrArg Prod.fst (Option.some.inj hstep)
          simp only [call]
          split
          · exact h.underLock
          · exact h.same rfl
      | takeLock =>
          cases takeLock_locked hstep with
          | call c command lock hnext => exact Told.underLock (h.same rfl)
          | restart lock hnext => exact Told.bringUpLoop (h.same rfl)
      | resumeCaller =>
          cases resumeCaller_wentOn hstep with
          | exchanges c command howner hready => exact h.exchange
          | refused c command howner hready => exact h.same rfl
          | answered c command k tag out howner => exact h.afterExchange hi howner
      | startupTimeout =>
          cases startupTimeout_timedOut hstep with
          | turnedAway c command woken howner => exact h.same rfl
      | resumeBringUp w => exact h.resumeBringUp hi hl (hok.2 w rfl) hstep
      | requestRestart reason =>
          obtain rfl := congrArg Prod.fst (Option.some.inj hstep)
          exact h.requestRestart
      | runExecutor fails => exact h.runExecutor hi hl (next_runExecutor hstep).1
      | boot k b | receive k | answer k world | finishDeferred k | die k =>
          exact absurd ha (by simp [FlightAction.child?])

theorem reach_safe (h : (flightSystem cfg prog).Reach replays f) :
    (flightSystem cfg prog).Reach safeRestarts f := h.mono fun _ _ _ _ hok _ => hok.1

/-- The run lemma. -/
theorem reach_told (h : (flightSystem cfg prog).Reach replays f) : Told f := by
  refine h.invariant' ?_ ?_
  · intro _ heq
    subst heq
    exact started_told
  · intro f a f' hr ht hok hc
    obtain ⟨e, hstep⟩ := hc
    obtain ⟨hi, l, hl⟩ := reach_life (reach_safe hr)
    exact next_told ht hi hl hok hstep

/-- A skipped replay leaves the command of an earlier child behind. -/
theorem skipped_untruthful {e : Effects} (h : Told f) (hi : Inv prog f)
    (hskip : f.SkipsReplay w) (hstep : f.resumeBringUp cfg prog w = some (f', e)) : ¬ f'.Truthful := by
  obtain ⟨⟨k, s, hw, hmsg⟩, hprimed, hprovoked⟩ := hskip
  obtain ⟨args, hargs⟩ := Option.ne_none_iff_exists'.mp hprimed
  have hd : Doing prog w f (.hello k (some (.reply s))) := by
    cases hi.serial with
    | idle inactive _ _ _ _ | caller _ _ _ _ _ _ inactive _ _ _ _ =>
        have := inactive w
        rw [hw] at this
        exact absurd this (by simp [BringUp.active])
    | bringUp w' _ hidle _ hd =>
        obtain rfl : w' = w := by
          cases w' <;> cases w <;>
            first | rfl | exact absurd hidle (by simp [BringUpTask.other, hw, BringUp.active])
        exact hw ▸ hd
  have hchild : f.child = some k := hd.2.1
  simp only [Flight.resumeBringUp, hw, Flight.afterHello, hmsg] at hstep
  obtain ⟨hrun, _⟩ := Prod.mk.inj (Option.some.inj hstep)
  have hgo := (reprime_skips (w := w) (f := { f with
    inFlight := f.inFlight - 1, generation := f.generation + 1, restartAttempts := 0 })
    hprovoked).symm.trans hrun
  obtain ⟨hp, ha, hc, _⟩ := readyUp_books hgo.symm
  intro htrue
  rcases htrue (by rw [← hgo]; exact endBringUp_state) with hnone | ⟨j, hj, hacked⟩
  · exact absurd (hargs.symm.trans (hp.symm.trans hnone)) (by simp)
  · obtain rfl : k = j := Option.some.inj (hchild.symm.trans (hc.symm.trans hj))
    have hsilent : f'.acked k = none := by rw [ha]; exact h.silent w k _ hw
    exact absurd (hsilent.symm.trans (hacked.trans (hp.trans hargs))) (by simp)

/-- **What is primed is what the current child acknowledged, in every run that replays
what it may, and a replay skipped with something to replay ends that.** -/
theorem primed_args_truthful (h : (flightSystem cfg prog).Reach replays f) :
    f.Truthful ∧
      ∀ w f' e, f.SkipsReplay w → f.next cfg prog (.resumeBringUp w) = some (f', e) →
        ¬ f'.Truthful := by
  obtain ⟨hi, l, hl⟩ := reach_life (reach_safe h)
  have ht := reach_told h
  exact ⟨ht.truthful, fun w f' e hskip hstep => skipped_untruthful ht hi hskip hstep⟩

/-! ### A run that skips one

The first run shows the condition met with a prepare that succeeds.  The second goes on from it:
the next prepare kills the child, and because a prepare provoked the loss, the new child is told
nothing.
-/

/-- Bring a child up and have it prepare: what the runs below have in common. -/
def primedRun (args : PrepareCommand) (reply : Msg) : List (FlightAction Msg) :=
  [.resumeBringUp .startup, .runExecutor none, .runExecutor none, .resumeBringUp .startup,
    .boot 0 .hello, .runExecutor none, .resumeBringUp .startup,
    .call 0 (.prepare args), .runExecutor none, .receive 0, .answer 0 reply, .runExecutor none,
    .resumeCaller]

/-- A second prepare kills the child, and a new one says hello. -/
def prepareKills (args : PrepareCommand) : List (FlightAction Msg) :=
  [.call 1 (.prepare args), .runExecutor none, .receive 0, .die 0,
    .runExecutor (some "coordinator exited (exitcode=-9)"), .resumeCaller,
    .resumeBringUp .restart, .runExecutor none, .runExecutor none, .resumeBringUp .restart,
    .boot 1 .hello, .runExecutor none, .resumeBringUp .restart]

/-- A bare prepare. -/
def barePrepare (calibTime : String) : PrepareCommand := ⟨"r_57", 0, 0, calibTime, []⟩

/-- What a child answers to a bare prepare. -/
def bareReply : Msg :=
  .prepared ⟨false, 0, false, 1, 1, 1, 1, 0, (0, 0), false, false, "files", 8, 0, "r_57", ""⟩
    "config" ⟨[], "r_57", {8192}, ""⟩

/-- The steps of a run that nobody restarts and that brings children up unprimed. -/
def calmNext (cfg : CoordSettings) (prog : ChildProgram κ σ) (f : Flight κ) :
    FlightAction σ → Option (Flight κ)
  | .requestRestart _ => none
  | .resumeBringUp w =>
      if f.primedArgs = none then (f.next cfg prog (.resumeBringUp w)).map Prod.fst else none
  | a => (f.next cfg prog a).map Prod.fst

theorem calm_reach {l : List (FlightAction σ)}
    (h : System.follow (calmNext cfg prog) l (Flight.started prog) = some f) :
    (flightSystem cfg prog).Reach replays f := by
  refine System.Reach.follow ?_ l (.init rfl) h
  intro f a f' hstep
  have hmap : (f.next cfg prog a).map Prod.fst = some f' := by
    cases a with
    | requestRestart _ => exact absurd hstep (by simp [calmNext])
    | resumeBringUp w =>
        simp only [calmNext] at hstep
        split at hstep
        · exact hstep
        · exact absurd hstep (by simp)
    | _ => exact hstep
  obtain ⟨⟨g, e⟩, hg, rfl⟩ := Option.map_eq_some_iff.mp hmap
  refine ⟨⟨e, hg⟩, ?_, ?_⟩
  · intro reason heq
    subst heq
    exact absurd hstep (by simp [calmNext])
  · intro w heq hc
    subst heq
    obtain ⟨_, hprimed, _⟩ := hc
    simp only [calmNext, if_neg hprimed] at hstep
    exact absurd hstep (by simp)

/-- After one prepare the flight is READY and its child has acknowledged it. -/
theorem primed_args_truthful_prepared :
    ∃ f : Flight Unit, f.state = .ready ∧ f.primedArgs = some (barePrepare "2026-07-13") ∧
      f.Truthful := by
  obtain ⟨f, hf⟩ : ∃ f, System.follow (calmNext .standard .scripted)
      (primedRun (barePrepare "2026-07-13") bareReply) (Flight.started .scripted) = some f :=
    ⟨_, rfl⟩
  have hshape : f.state = .ready ∧ f.primedArgs = some (barePrepare "2026-07-13") := by
    obtain rfl := Option.some.inj hf
    exact ⟨rfl, rfl⟩
  exact ⟨f, hshape.1, hshape.2, (primed_args_truthful (calm_reach hf)).1⟩

/-- **READY, primed with what an earlier child acknowledged.**  One prepare succeeds, a
second kills its child, and the replay of the first is skipped. -/
theorem primed_args_stale :
    ∃ f : Flight Unit, (flightSystem .standard .scripted).Reach System.always f ∧
      f.state = .ready ∧ f.child = some 1 ∧ f.acked 1 = none ∧
      f.primedArgs = some (barePrepare "2026-07-13") ∧ ¬ f.Truthful := by
  obtain ⟨f, hf⟩ : ∃ f, Flight.follow .standard .scripted
      (primedRun (barePrepare "2026-07-13") bareReply ++ prepareKills (barePrepare "2026-07-14"))
      (Flight.started .scripted) = some f := ⟨_, rfl⟩
  have hshape : f.state = .ready ∧ f.child = some 1 ∧ f.acked 1 = none ∧
      f.primedArgs = some (barePrepare "2026-07-13") := by
    obtain rfl := Option.some.inj hf
    exact ⟨rfl, rfl, rfl, rfl⟩
  obtain ⟨hready, hchild, hacked, hprimed⟩ := hshape
  refine ⟨f, Flight.follow_reach hf, hready, hchild, hacked, hprimed, fun htrue => ?_⟩
  rcases htrue hready with hnone | ⟨k, hk, hack⟩
  · exact absurd (hprimed.symm.trans hnone) (by simp)
  · obtain rfl : 1 = k := Option.some.inj (hchild.symm.trans hk)
    exact absurd (hacked.symm.trans (hack.trans hprimed)) (by simp)

end Flight

end DonutServer
