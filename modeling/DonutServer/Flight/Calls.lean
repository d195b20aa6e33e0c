/-
What becomes of a command that `send_command` was called with.

It is in one of three places: with its caller, who waits for the lock or for the
flight to be ready; in the hands of the reader thread; or written to a pipe.  It may
drop out on the way, when its caller is refused or its child dies, but it never
becomes two.  `asked` counts the places, for the commands that satisfy a test, and no
step of a flight other than a call makes it grow.

This needs nothing of the bring-ups: it holds in runs with unsafe restarts too.
-/
import DonutServer.Flight.Threads

namespace DonutServer

open Function

variable {κ σ : Type} {prog : ChildProgram κ σ} {cfg : CoordSettings}

/-! ### Counting commands

The three places are counted over a test on commands, since what is to be counted is the commands
of one job.  A step that moves a command from one place to the next leaves the sum, and a caller
that is refused lowers it; `NoMore` is all that has to be shown of a step.
-/

/-- A caller in the queue has such a command. -/
def Waiter.asks (p : Command → Bool) : Waiter → Bool
  | .call _ command => p command
  | .restart => false

/-- The holder has such a command and has not handed it on. -/
def Holder.asks (p : Command → Bool) : Holder → Bool
  | .call _ command (.waiting _) => p command
  | _ => false

/-- The thread has such a command to write. -/
def Job.asks (p : Command → Bool) : Job → Bool
  | .exchange _ _ _ command => p command
  | _ => false

theorem Holder.wake_asks (p : Command → Bool) (h : Holder) : h.wake.asks p = h.asks p := by
  cases h with
  | restart => rfl
  | call c command stage => cases stage <;> rfl

/-- A function that is changed at one place passes a test there at most once more. -/
theorem countP_update_le {β : Type} (q : β → Bool) (w : Nat → β) (tag : Nat) (v : β) (m : Nat) :
    (List.range m).countP (fun t => q (update w tag v t)) ≤
      (List.range m).countP (fun t => q (w t)) + if q v = true then 1 else 0 := by
  induction m with
  | zero => simp
  | succ m ih =>
      rw [List.range_succ, List.countP_append, List.countP_append, List.countP_singleton,
        List.countP_singleton]
      by_cases hm : m = tag
      · subst hm
        have hsame : (List.range m).countP (fun t => q (update w m v t)) =
            (List.range m).countP (fun t => q (w t)) := by
          refine List.countP_congr fun t ht => ?_
          rw [update_of_ne (Nat.ne_of_lt (List.mem_range.mp ht))]
        rw [hsame, update_self]
        split <;> omega
      · rw [update_of_ne hm]
        omega

namespace Flight

variable {f f' g : Flight κ} {p : Command → Bool}

/-- Such a command was written under the tag. -/
def wrote (p : Command → Bool) (f : Flight κ) (tag : Tag) : Bool :=
  (f.written tag).any fun w => p w.2.2

/-- Such a command is still with the holder of the lock. -/
def held (p : Command → Bool) (f : Flight κ) : Nat :=
  if f.lock.owner.any (Holder.asks p) then 1 else 0

/-- How many such commands are with their callers, with the thread, or written. -/
def asked (p : Command → Bool) (f : Flight κ) : Nat :=
  f.lock.waiters.countP (Waiter.asks p) + f.held p + f.executor.countP (Job.asks p) +
    (List.range f.nextTag).countP (f.wrote p)

/-- Tags are given out in order, and a command is written under a tag given out. -/
structure Numbered (f : Flight κ) : Prop where
  unwritten : ∀ tag, f.nextTag ≤ tag → f.written tag = none
  given : ∀ o k tag command, Job.exchange o k tag command ∈ f.executor → tag < f.nextTag

/-- `f'` asks for nothing that `f` does not. -/
structure NoMore (p : Command → Bool) (f f' : Flight κ) : Prop where
  numbered : Numbered f → Numbered f'
  asked : Numbered f → f'.asked p ≤ f.asked p

theorem NoMore.trans (h : NoMore p f g) (h' : NoMore p g f') : NoMore p f f' :=
  ⟨fun hn => h'.numbered (h.numbered hn),
    fun hn => Nat.le_trans (h'.asked (h.numbered hn)) (h.asked hn)⟩

/-- Only the lock, the executor and the tags are looked at. -/
theorem NoMore.same (hsame : (f'.lock, f'.executor, f'.nextTag, f'.written) =
    (f.lock, f.executor, f.nextTag, f.written)) : NoMore p f f' := by
  simp only [Prod.mk.injEq] at hsame
  obtain ⟨hlock, hexecutor, hnext, hwritten⟩ := hsame
  refine ⟨fun hn => ⟨?_, ?_⟩, fun _ => ?_⟩
  · rw [hnext, hwritten]
    exact hn.unwritten
  · rw [hnext, hexecutor]
    exact hn.given
  · unfold Flight.asked held wrote
    rw [hlock, hexecutor, hnext, hwritten]

theorem NoMore.refl : NoMore p f f := .same rfl

/-- Only the lock changes, and it holds no more such commands. -/
theorem NoMore.relock
    (hsame : (f'.executor, f'.nextTag, f'.written) = (f.executor, f.nextTag, f.written))
    (hlock : f'.lock.waiters.countP (Waiter.asks p) + f'.held p ≤
      f.lock.waiters.countP (Waiter.asks p) + f.held p) : NoMore p f f' := by
  simp only [Prod.mk.injEq] at hsame
  obtain ⟨hexecutor, hnext, hwritten⟩ := hsame
  refine ⟨fun hn => ⟨?_, ?_⟩, fun _ => ?_⟩
  · rw [hnext, hwritten]
    exact hn.unwritten
  · rw [hnext, hexecutor]
    exact hn.given
  · have hwrote : f'.wrote p = f.wrote p := by
      funext tag
      unfold wrote
      rw [hwritten]
    unfold Flight.asked
    rw [hexecutor, hnext, hwrote]
    omega

/-- Only the executor changes, and it has no more such commands. -/
theorem NoMore.requeue
    (hsame : (f'.lock, f'.nextTag, f'.written) = (f.lock, f.nextTag, f.written))
    (hjobs : ∀ o k tag command, Job.exchange o k tag command ∈ f'.executor →
      Job.exchange o k tag command ∈ f.executor)
    (hcount : f'.executor.countP (Job.asks p) ≤ f.executor.countP (Job.asks p)) :
    NoMore p f f' := by
  simp only [Prod.mk.injEq] at hsame
  obtain ⟨hlock, hnext, hwritten⟩ := hsame
  refine ⟨fun hn => ⟨?_, ?_⟩, fun _ => ?_⟩
  · rw [hnext, hwritten]
    exact hn.unwritten
  · intro o k tag command hmem
    rw [hnext]
    exact hn.given o k tag command (hjobs o k tag command hmem)
  · have hwrote : f'.wrote p = f.wrote p := by
      funext tag
      unfold wrote
      rw [hwritten]
    have hheld : f'.held p = f.held p := by
      unfold held
      rw [hlock]
    unfold Flight.asked
    rw [hlock, hnext, hwrote, hheld]
    omega

/-! ### Bring-ups and books

A bring-up hands nobody's command on.  It lets the lock go, which leaves the callers in the queue
where they are, and what it gives the thread is reaps and waits.
-/

theorem NoMore.setTask {w : BringUpTask} {b : BringUp} (h : NoMore p g f) :
    NoMore p g (f.setTask w b) := h.trans (.same rfl)

theorem NoMore.setChild {k : ChildId} {c : Child κ} (h : NoMore p g f) :
    NoMore p g (f.setChild k c) := h.trans (.same rfl)

theorem NoMore.release (h : NoMore p g f) : NoMore p g { f with lock := f.lock.release } := by
  refine h.trans (.relock rfl ?_)
  have hnone : Flight.held p { f with lock := f.lock.release } = 0 := rfl
  rw [hnone]
  exact Nat.le_add_right _ _

theorem NoMore.endBringUp {w : BringUpTask} (h : NoMore p g f) : NoMore p g (endBringUp w f) := by
  cases w with
  | startup => exact h.setTask
  | restart =>
      have hset : NoMore p g (f.setTask .restart .absent) := h.setTask
      exact hset.release

theorem NoMore.setReady (h : NoMore p g f) : NoMore p g (setReady f) := by
  refine h.trans (.relock rfl (Nat.le_of_eq ?_))
  have hheld : (Flight.setReady f).held p = f.held p := by
    unfold Flight.held Flight.setReady
    rcases f.lock.owner with _ | holder
    · rfl
    · simp only [Option.map_some, Option.any_some, Holder.wake_asks]
  rw [hheld]
  rfl

theorem NoMore.submit {j : Job} (h : NoMore p g f)
    (hj : ∀ o k tag command, j ≠ .exchange o k tag command) : NoMore p g (f.submit j) := by
  refine h.trans (.requeue rfl ?_ (Nat.le_of_eq ?_))
  · intro o k tag command hmem
    rcases List.mem_append.mp hmem with hold | hnew
    · exact hold
    · exact absurd (List.mem_singleton.mp hnew).symm (hj o k tag command)
  · have hasks : j.asks p = false := by
      cases j with
      | exchange o k tag command => exact absurd rfl (hj o k tag command)
      | _ => rfl
    show (f.executor ++ [j]).countP (Job.asks p) = _
    rw [List.countP_append, List.countP_singleton, hasks]
    rfl

/-- The thread is handed a command: one more, if it is such a command. -/
theorem startExchange_asked {o : Client} {k : ChildId} (command : Command) (hn : Numbered f) :
    Numbered (startExchange o k command f) ∧
      (startExchange o k command f).asked p = f.asked p + if p command = true then 1 else 0 := by
  refine ⟨⟨?_, ?_⟩, ?_⟩
  · intro tag htag
    exact hn.unwritten tag (Nat.le_of_succ_le htag)
  · intro o' k' tag command' hmem
    rcases List.mem_append.mp hmem with h | h
    · exact Nat.lt_succ_of_lt (hn.given o' k' tag command' h)
    · obtain ⟨_, _, rfl, _⟩ := Job.exchange.inj (List.mem_singleton.mp h)
      exact Nat.lt_succ_self _
  · have hlast : f.wrote p f.nextTag = false := by
      unfold wrote
      rw [hn.unwritten _ (Nat.le_refl _)]
      rfl
    have hwrote : (List.range (f.nextTag + 1)).countP (f.wrote p) =
        (List.range f.nextTag).countP (f.wrote p) := by
      rw [List.range_succ, List.countP_append, List.countP_singleton, hlast]
      simp
    have hone : (if (Job.exchange o k f.nextTag command).asks p = true then 1 else 0) =
        if p command = true then 1 else 0 := rfl
    show f.lock.waiters.countP (Waiter.asks p) + f.held p +
      (f.executor ++ [Job.exchange o k f.nextTag command]).countP (Job.asks p) +
        (List.range (f.nextTag + 1)).countP (f.wrote p) = _
    rw [hwrote, List.countP_append, List.countP_singleton, hone]
    unfold Flight.asked
    omega

theorem NoMore.startExchange {o : Client} {k : ChildId} {command : Command} (h : NoMore p g f)
    (hp : p command = false) : NoMore p g (startExchange o k command f) := by
  refine h.trans ⟨fun hn => (startExchange_asked (p := p) _ hn).1, fun hn => ?_⟩
  rw [(startExchange_asked _ hn).2, hp]
  simp

theorem NoMore.bringUpLoop {w : BringUpTask} (h : NoMore p g f) :
    NoMore p g (bringUpLoop cfg w f) := by
  unfold Flight.bringUpLoop
  split
  · exact h.endBringUp
  · split
    · exact NoMore.endBringUp (NoMore.setReady (h.trans (.same rfl)))
    · dsimp only
      split
      · refine NoMore.setTask (NoMore.submit (h.trans (.same rfl)) ?_)
        intro o k tag command
        exact Job.noConfusion
      · exact NoMore.setTask (h.trans (.same rfl))

theorem NoMore.retry {w : BringUpTask} {reason : String} {provokedBy : Option String}
    (h : NoMore p g f) : NoMore p g (retry cfg w reason provokedBy f).1 :=
  NoMore.bringUpLoop (h.trans (.same rfl))

theorem NoMore.readyUp {w : BringUpTask} (h : NoMore p g f) : NoMore p g (readyUp w f) :=
  NoMore.endBringUp (NoMore.setReady (h.trans (.same rfl)))

theorem NoMore.spawnChild {w : BringUpTask} (h : NoMore p g f) :
    NoMore p g (spawnChild prog w f) := by
  have hchild : NoMore p g (f.setChild f.spawns (.born prog)) := h.setChild
  have hsubmit := hchild.submit (j := .awaitReply (.task w) f.spawns true)
    fun _ _ _ _ => Job.noConfusion
  exact hsubmit.trans (.same rfl)

/-! ### A test that no prepare passes

A replayed prepare is a command nobody called for, so such commands are counted only
where they are none.
-/

theorem NoMore.reprime {w : BringUpTask} (hprepare : ∀ args, p (.prepare args) = false)
    (h : NoMore p g f) : NoMore p g (reprime w f) := by
  unfold Flight.reprime
  split
  · exact h.readyUp
  · split
    · exact h.readyUp
    · split
      · exact NoMore.readyUp (h.trans (.same rfl))
      · exact NoMore.setTask (NoMore.startExchange (h.trans (.same rfl)) (hprepare _))

theorem NoMore.afterHello {w : BringUpTask} {out : Outcome}
    (hprepare : ∀ args, p (.prepare args) = false) (h : NoMore p g f) :
    NoMore p g (afterHello cfg w out f).1 := by
  unfold Flight.afterHello
  dsimp only
  split
  · exact NoMore.retry (h.trans (.same rfl))
  · split
    · refine NoMore.setTask (NoMore.submit (h.trans (.same rfl)) ?_)
      intro o k tag command
      exact Job.noConfusion
    · exact NoMore.reprime hprepare (h.trans (.same rfl))
    · exact NoMore.retry (h.trans (.same rfl))

theorem NoMore.afterReprime {w : BringUpTask} {args : PrepareCommand} {out : Outcome}
    (h : NoMore p g f) : NoMore p g (afterReprime cfg w args out f).1 := by
  unfold Flight.afterReprime
  dsimp only
  split
  · exact NoMore.retry (h.trans (.same rfl))
  · split <;> exact NoMore.readyUp (h.trans (.same rfl))

theorem resumeBringUp_noMore {w : BringUpTask} {e : Effects}
    (hprepare : ∀ args, p (.prepare args) = false)
    (h : f.resumeBringUp cfg prog w = some (f', e)) : NoMore p f f' := by
  have hrefl : NoMore p f f := .refl
  cases resumeBringUp_resumed h with
  | startup htask => exact hrefl.bringUpLoop
  | restart htask hstartup hfree =>
      have htake : NoMore p f { f with lock := f.lock.hold .restart } := by
        refine .relock rfl ?_
        exact Nat.le_add_right _ _
      exact htake.bringUpLoop
  | queued htask hstartup =>
      refine NoMore.relock rfl (Nat.le_of_eq ?_)
      show (f.lock.waiters ++ [Waiter.restart]).countP (Waiter.asks p) + f.held p = _
      rw [List.countP_append]
      rfl
  | backoff w htask =>
      refine NoMore.setTask (hrefl.submit ?_)
      intro o k tag command
      exact Job.noConfusion
  | reaped w htask => exact hrefl.spawnChild
  | gaveUp w fatal htask => exact hrefl.setReady.endBringUp
  | hello w k out htask => exact hrefl.afterHello hprepare
  | reprimed w k tag args out htask => exact hrefl.afterReprime

/-! ### Callers

Here is the one step that adds to the count: `send_command` is called, with the command it is
called with.  Whatever becomes of the caller from then on takes its command along, hands it over or
drops it.
-/

theorem NoMore.startRestart (h : NoMore p g f) : NoMore p g (startRestart f) := by
  unfold Flight.startRestart
  split
  · exact h
  · dsimp only
    split
    · exact NoMore.setTask (h.trans (.same rfl))
    · exact h.trans (.same rfl)

theorem NoMore.killChild (h : NoMore p g f) : NoMore p g (killChild f) := by
  unfold Flight.killChild
  split
  · exact h
  · exact h.setChild

theorem NoMore.requestRestart {reason : String} (h : NoMore p g f) :
    NoMore p g (requestRestart reason f).1 := by
  unfold Flight.requestRestart
  split
  · exact NoMore.startRestart (h.trans (.same rfl))
  · split
    · exact NoMore.startRestart (h.killChild.trans (.same rfl))
    · exact h.killChild

/-- What a flight asks for, its holder apart. -/
def askedBehind (p : Command → Bool) (f : Flight κ) : Nat :=
  Flight.asked p { f with lock := f.lock.release }

/-- What was asked for is what the holder of the lock asks for, and all the rest. -/
theorem asked_eq : f.asked p = f.askedBehind p + f.held p := by
  have hnone : held p { f with lock := f.lock.release } = 0 := rfl
  unfold askedBehind Flight.asked
  rw [hnone]
  show _ = f.lock.waiters.countP (Waiter.asks p) + 0 + f.executor.countP (Job.asks p) +
    (List.range f.nextTag).countP (f.wrote p) + f.held p
  omega

/-- A caller that starts its exchange is counted once, and whoever held the lock before it no
more. -/
theorem exchange_asked {c : CallId} {command : Command} (hn : Numbered f) :
    Numbered (f.exchange c command).1 ∧
      (f.exchange c command).1.asked p ≤ f.askedBehind p + if p command = true then 1 else 0 := by
  unfold exchange
  split
  · exact ⟨⟨hn.unwritten, hn.given⟩, Nat.le_add_right _ _⟩
  · rename_i k _
    have hfree : Numbered { f with lock := f.lock.release } := ⟨hn.unwritten, hn.given⟩
    obtain ⟨hnum, hasked⟩ := startExchange_asked (p := p) (o := .call c) (k := k)
      command hfree
    exact ⟨⟨hnum.unwritten, hnum.given⟩, Nat.le_of_eq hasked⟩

/-- A caller who gets the lock brings its own command, and no more. -/
theorem underLock_asked {c : CallId} (command : Command) (hn : Numbered f) :
    Numbered (f.underLock c command).1 ∧
      (f.underLock c command).1.asked p ≤ f.askedBehind p + if p command = true then 1 else 0 := by
  unfold underLock
  split
  · exact exchange_asked hn
  · split
    · refine ⟨⟨hn.unwritten, hn.given⟩, Nat.le_of_eq ?_⟩
      rw [asked_eq]
      rfl
    · exact ⟨⟨hn.unwritten, hn.given⟩, Nat.le_add_right _ _⟩

/-- **A call adds its own command, and no more.** -/
theorem call_asked {c : CallId} (command : Command) (hn : Numbered f) :
    Numbered (f.call c command).1 ∧
      (f.call c command).1.asked p ≤ f.asked p + if p command = true then 1 else 0 := by
  unfold call
  split
  · obtain ⟨hnum, hasked⟩ := underLock_asked (p := p) (c := c) command hn
    refine ⟨hnum, Nat.le_trans hasked ?_⟩
    rw [asked_eq]
    omega
  · refine ⟨⟨hn.unwritten, hn.given⟩, Nat.le_of_eq ?_⟩
    show (f.lock.waiters ++ [Waiter.call c command]).countP (Waiter.asks p) + f.held p +
      f.executor.countP (Job.asks p) + (List.range f.nextTag).countP (f.wrote p) = _
    have hone : (if (Waiter.call c command).asks p = true then 1 else 0) =
        if p command = true then 1 else 0 := rfl
    rw [List.countP_append, List.countP_singleton, hone]
    unfold Flight.asked
    omega

theorem takeLock_noMore {e : Effects} (h : f.takeLock cfg = some (f', e)) : NoMore p f f' := by
  have hasked : ∀ {waiter : Waiter} {lock : FifoLock Holder Waiter},
      f.lock.next? = some (waiter, lock) → f.asked p = askedBehind p { f with lock } +
        if waiter.asks p = true then 1 else 0 := by
    intro waiter lock hnext
    obtain ⟨howner, hwaiters, -⟩ := FifoLock.next?_eq_some.mp hnext
    have hheld : f.held p = 0 := by
      unfold held
      rw [howner]
      rfl
    unfold Flight.asked askedBehind Flight.asked
    rw [hheld, hwaiters, List.countP_cons]
    show _ = lock.waiters.countP (Waiter.asks p) + 0 + f.executor.countP (Job.asks p) +
      (List.range f.nextTag).countP (f.wrote p) + _
    omega
  cases takeLock_locked h with
  | call c command lock hnext =>
      have hrest : Numbered f → Numbered { f with lock } := fun hn => ⟨hn.unwritten, hn.given⟩
      refine ⟨fun hn => (underLock_asked (p := p) _ (hrest hn)).1, fun hn => ?_⟩
      rw [hasked hnext]
      exact (underLock_asked _ (hrest hn)).2
  | restart lock hnext =>
      have htake : NoMore p f { f with lock := lock.hold .restart } := by
        refine ⟨fun hn => ⟨hn.unwritten, hn.given⟩, fun _ => ?_⟩
        rw [hasked hnext]
        exact Nat.le_add_right _ _
      exact htake.bringUpLoop

theorem afterExchange_noMore {c : CallId} {command : Command} {out : Outcome} :
    NoMore p f (f.afterExchange c command out).1 := by
  unfold afterExchange
  dsimp only
  split
  · exact NoMore.release (NoMore.startRestart (.same rfl))
  · split
    · split
      · exact NoMore.release (.same rfl)
      · exact NoMore.release (.same rfl)
    · exact NoMore.release (.same rfl)

theorem resumeCaller_noMore {e : Effects} (h : f.resumeCaller = some (f', e)) : NoMore p f f' := by
  cases resumeCaller_wentOn h with
  | exchanges c command howner hready =>
      have hasked : f.asked p = f.askedBehind p + if p command = true then 1 else 0 := by
        have hheld : f.held p = if p command = true then 1 else 0 := by
          unfold held
          rw [howner]
          rfl
        rw [asked_eq, hheld]
      refine ⟨fun hn => (exchange_asked (p := p) hn).1, fun hn => ?_⟩
      rw [hasked]
      exact (exchange_asked hn).2
  | refused c command howner hready => exact NoMore.release .refl
  | answered c command k tag out howner => exact afterExchange_noMore

theorem startupTimeout_noMore {e : Effects} (h : f.startupTimeout = some (f', e)) :
    NoMore p f f' := by
  cases startupTimeout_timedOut h with
  | turnedAway c command woken howner => exact NoMore.release .refl

/-! ### The reader thread

A command leaves the thread when it is written, under a tag that no other command was written
under.  What the thread waits for afterwards is no command.
-/

theorem NoMore.deliver {o : Client} {out : Outcome} (h : NoMore p g f) :
    NoMore p g (deliver o out f) := by
  unfold Flight.deliver
  split
  · split
    · exact h.setTask
    · exact h.setTask
    · exact h
  · split
    · rename_i howner
      split
      · refine h.trans (.relock rfl (Nat.le_of_eq ?_))
        unfold Flight.held
        rw [howner]
        rfl
      · exact h
    · exact h

theorem NoMore.deliverReaped {w : BringUpTask} (h : NoMore p g f) :
    NoMore p g (deliverReaped w f) := by
  unfold Flight.deliverReaped
  split
  · exact h.setTask
  · exact h

/-- The thread is done with the job at the head. -/
theorem NoMore.pop {j : Job} {rest : List Job} (hexecutor : f.executor = j :: rest) :
    NoMore p f { f with executor := rest } := by
  refine .requeue rfl ?_ ?_
  · intro o k tag command hmem
    rw [hexecutor]
    exact List.mem_cons_of_mem _ hmem
  · rw [hexecutor, List.countP_cons]
    exact Nat.le_add_right _ _

/-- The job at the head becomes one that writes nothing. -/
theorem NoMore.replace {j j' : Job} {rest : List Job} (hexecutor : f.executor = j :: rest)
    (hj : ∀ o k tag command, j' ≠ .exchange o k tag command) :
    NoMore p f { f with executor := j' :: rest } := by
  refine .requeue rfl ?_ ?_
  · intro o k tag command hmem
    rw [hexecutor]
    rcases List.mem_cons.mp hmem with h | h
    · exact absurd h.symm (hj o k tag command)
    · exact List.mem_cons_of_mem _ h
  · have hasks : j'.asks p = false := by
      cases j' with
      | exchange o k tag command => exact absurd rfl (hj o k tag command)
      | _ => rfl
    rw [hexecutor, List.countP_cons, List.countP_cons, hasks]
    simp

/-- A command that is written is with the thread no more. -/
theorem write_noMore {o : Client} {k : ChildId} {tag : Tag} {command : Command}
    {rest : List Job} (hexecutor : f.executor = .exchange o k tag command :: rest)
    (hsame : (f'.lock, f'.nextTag, f'.executor, f'.written) =
      (f.lock, f.nextTag, .awaitReply o k false :: rest,
        update f.written tag (some (o, k, command)))) : NoMore p f f' := by
  simp only [Prod.mk.injEq] at hsame
  obtain ⟨hlock, hnext, hexecutor', hwritten⟩ := hsame
  refine ⟨fun hn => ⟨?_, ?_⟩, fun _ => ?_⟩
  · intro t ht
    have hlt : tag < f.nextTag := hn.given o k tag command (by rw [hexecutor]; simp)
    rw [hnext] at ht
    rw [hwritten, update_of_ne (Nat.ne_of_gt (Nat.lt_of_lt_of_le hlt ht))]
    exact hn.unwritten t ht
  · intro o' k' t command' hmem
    rw [hexecutor'] at hmem
    rw [hnext]
    rcases List.mem_cons.mp hmem with h | h
    · exact absurd h (by simp)
    · exact hn.given o' k' t command' (by rw [hexecutor]; exact List.mem_cons_of_mem _ h)
  · have hwrote : (List.range f.nextTag).countP (f'.wrote p) ≤
        (List.range f.nextTag).countP (f.wrote p) + if p command = true then 1 else 0 := by
      have hfun : f'.wrote p =
          fun t => (update f.written tag (some (o, k, command)) t).any fun w => p w.2.2 := by
        funext t
        unfold wrote
        rw [hwritten]
      rw [hfun]
      exact countP_update_le (fun w => w.any fun w => p w.2.2) f.written tag
        (some (o, k, command)) f.nextTag
    have hheld : f'.held p = f.held p := by
      unfold held
      rw [hlock]
    have hone : (if (Job.exchange o k tag command).asks p = true then 1 else 0) =
        if p command = true then 1 else 0 := rfl
    have hawait : (Job.awaitReply o k false :: rest).countP (Job.asks p) =
        rest.countP (Job.asks p) := by
      rw [List.countP_cons]
      rfl
    unfold Flight.asked
    rw [hlock, hheld, hnext, hexecutor, hexecutor', hawait, List.countP_cons, hone]
    omega

theorem runExecutor_noMore {fails : Option String} (h : f.runExecutor fails = some f') :
    NoMore p f f' := by
  cases runExecutor_executed h with
  | reap w rest hjob =>
      exact (NoMore.replace hjob fun _ _ _ _ => Job.noConfusion).trans (.same rfl)
  | reapedNone w rest hjob => exact NoMore.deliverReaped (.pop hjob)
  | reaped w k rest hjob => exact NoMore.deliverReaped ((NoMore.pop hjob).trans (.same rfl))
  | unwritten o k tag command rest reason hjob hdead => exact (NoMore.pop hjob).deliver
  | written o k tag command rest hjob => exact write_noMore hjob rfl
  | lost o k timed rest reason hjob hmay => exact (NoMore.pop hjob).deliver
  | replied o k timed rest s more hjob hout =>
      exact NoMore.deliver ((NoMore.pop hjob).trans (.same rfl))

/-! ### One step

Summed up over the kinds of steps, the count never grows but by a call.  A command that was called
for once is therefore written at most once, under one tag.
-/

/-- **No other step asks for more**, nor does it write a command twice. -/
theorem next_noMore {a : FlightAction σ} {e : Effects} (hprepare : ∀ args, p (.prepare args) = false)
    (hcall : ∀ c command, a ≠ .call c command) (h : f.next cfg prog a = some (f', e)) :
    NoMore p f f' := by
  cases a with
  | call c command => exact absurd rfl (hcall c command)
  | takeLock => exact takeLock_noMore h
  | resumeCaller => exact resumeCaller_noMore h
  | startupTimeout => exact startupTimeout_noMore h
  | resumeBringUp w => exact resumeBringUp_noMore hprepare h
  | requestRestart reason =>
      have hf : _ = f' := congrArg Prod.fst (Option.some.inj h)
      rw [← hf]
      exact NoMore.requestRestart .refl
  | runExecutor fails => exact runExecutor_noMore (next_runExecutor h).1
  | boot k b | receive k | answer k world | finishDeferred k | die k =>
      obtain ⟨_, _, _, rfl⟩ := next_child rfl h
      exact NoMore.setChild .refl

theorem started_numbered : Numbered (Flight.started prog) :=
  ⟨fun _ _ => rfl, fun _ _ _ _ hmem => absurd hmem List.not_mem_nil⟩

/-- At first nothing was asked for. -/
theorem started_asked : (Flight.started prog).asked p = 0 := rfl

/-- Commands that were written are among those asked for. -/
theorem wrote_lt (hn : Numbered f) {tag : Tag} (h : f.wrote p tag = true) : tag < f.nextTag := by
  refine Nat.lt_of_not_le fun hle => ?_
  unfold wrote at h
  rw [hn.unwritten tag hle] at h
  exact absurd h (by simp)

/-- What was written was asked for. -/
theorem asked_pos (hn : Numbered f) {tag : Tag} (h : f.wrote p tag = true) : 0 < f.asked p := by
  have hpos : 0 < (List.range f.nextTag).countP (f.wrote p) :=
    List.countP_pos_iff.mpr ⟨tag, List.mem_range.mpr (wrote_lt hn h), h⟩
  unfold Flight.asked
  omega

/-- What was asked for once was written at most once. -/
theorem wrote_unique (hn : Numbered f) (hone : f.asked p ≤ 1) {tag tag' : Tag}
    (h : f.wrote p tag = true) (h' : f.wrote p tag' = true) : tag = tag' := by
  have hcount : (List.range f.nextTag).countP (f.wrote p) ≤ 1 := by
    unfold Flight.asked at hone
    omega
  by_contra hne
  have htwo : 2 ≤ ((List.range f.nextTag).filter (f.wrote p)).length := by
    have hsub : [tag, tag'].Subperm ((List.range f.nextTag).filter (f.wrote p)) := by
      refine List.subperm_of_subset (by simpa using hne) ?_
      intro t ht
      rcases List.mem_cons.mp ht with rfl | ht
      · exact List.mem_filter.mpr ⟨List.mem_range.mpr (wrote_lt hn h), h⟩
      · obtain rfl := List.mem_singleton.mp ht
        exact List.mem_filter.mpr ⟨List.mem_range.mpr (wrote_lt hn h'), h'⟩
    exact hsub.length_le
  rw [← List.countP_eq_length_filter] at htwo
  omega

end Flight

end DonutServer
