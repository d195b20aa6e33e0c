/-
What the segments of a flight can do.

A bring-up task, the reader thread, the lock and a caller each go on in one of a few ways.
Each way is named here once, with where it starts from and the state it leaves, so that a
proof about all of them takes one case for each.
-/
import DonutServer.Flight.Step

namespace DonutServer.Flight

variable {κ σ : Type} {cfg : CoordSettings} {prog : ChildProgram κ σ} {f f' : Flight κ}
  {w : BringUpTask} {e : Effects}

/-! ### Bring-up tasks

A bring-up task goes on from each of its awaits in one way.  The exception is a scheduled restart,
which finds the lock free and enters `_bring_up` at once, or joins the queue for it; the startup
task, which never takes the lock, has its first step before the restart has its own.
-/

/-- How a bring-up task goes on. -/
inductive Resumed (cfg : CoordSettings) (prog : ChildProgram κ σ) (f : Flight κ) :
    BringUpTask → Flight κ → Effects → Prop
  | startup (htask : f.tasks .startup = .scheduled) :
      Resumed cfg prog f .startup (bringUpLoop cfg .startup f) {}
  | restart (htask : f.tasks .restart = .scheduled) (hstartup : f.tasks .startup ≠ .scheduled)
      (hfree : f.lock.uncontended = true) :
      Resumed cfg prog f .restart
        (bringUpLoop cfg .restart { f with lock := f.lock.hold .restart }) {}
  | queued (htask : f.tasks .restart = .scheduled) (hstartup : f.tasks .startup ≠ .scheduled) :
      Resumed cfg prog f .restart
        { f.setTask .restart .queued with lock := f.lock.enqueue .restart } {}
  | backoff (w : BringUpTask) (htask : f.tasks w = .backoff) :
      Resumed cfg prog f w ((f.submit (.reap w)).setTask w (.reaping none false)) {}
  | reaped (w : BringUpTask) (htask : f.tasks w = .reaping none true) :
      Resumed cfg prog f w (spawnChild prog w f) {}
  | gaveUp (w : BringUpTask) (fatal : String) (htask : f.tasks w = .reaping (some fatal) true) :
      Resumed cfg prog f w (endBringUp w (setReady f)) {}
  | hello (w : BringUpTask) (k : ChildId) (out : Outcome)
      (htask : f.tasks w = .hello k (some out)) :
      Resumed cfg prog f w (afterHello cfg w out f).1 (afterHello cfg w out f).2
  | reprimed (w : BringUpTask) (k : ChildId) (tag : Tag) (args : PrepareCommand) (out : Outcome)
      (htask : f.tasks w = .repriming k tag args (some out)) :
      Resumed cfg prog f w (afterReprime cfg w args out f).1 (afterReprime cfg w args out f).2

theorem resumeBringUp_resumed (h : f.resumeBringUp cfg prog w = some (f', e)) :
    Resumed cfg prog f w f' e := by
  unfold resumeBringUp at h
  split at h
  · exact absurd h (by simp)
  · rename_i htask
    split at h
    · obtain ⟨rfl, rfl⟩ := Prod.mk.inj (Option.some.inj h)
      exact .startup htask
    · split at h
      · exact absurd h (by simp)
      · rename_i hstartup
        split at h
        · rename_i hfree
          obtain ⟨rfl, rfl⟩ := Prod.mk.inj (Option.some.inj h)
          exact .restart htask hstartup hfree
        · obtain ⟨rfl, rfl⟩ := Prod.mk.inj (Option.some.inj h)
          exact .queued htask hstartup
  · exact absurd h (by simp)
  · rename_i htask
    obtain ⟨rfl, rfl⟩ := Prod.mk.inj (Option.some.inj h)
    exact .backoff w htask
  · rename_i htask
    obtain ⟨rfl, rfl⟩ := Prod.mk.inj (Option.some.inj h)
    exact .reaped w htask
  · rename_i fatal htask
    obtain ⟨rfl, rfl⟩ := Prod.mk.inj (Option.some.inj h)
    exact .gaveUp w fatal htask
  · rename_i k out htask
    have hgoes : Resumed cfg prog f w _ _ := .hello w k out htask
    rwa [Option.some.inj h] at hgoes
  · rename_i k tag args out htask
    have hgoes : Resumed cfg prog f w _ _ := .reprimed w k tag args out htask
    rwa [Option.some.inj h] at hgoes
  · exact absurd h (by simp)

/-! ### The lock and its holder

The lock passes to whoever asked first.  A caller that gets it goes on as one that found it free; a
restart enters `_bring_up`.
-/

/-- How the waiter whose turn it is takes the lock. -/
inductive Locked (cfg : CoordSettings) (f : Flight κ) : Flight κ → Effects → Prop
  | call (c : CallId) (command : Command) (lock : FifoLock Holder Waiter)
      (hnext : f.lock.next? = some (.call c command, lock)) :
      Locked cfg f (underLock c command { f with lock }).1 (underLock c command { f with lock }).2
  | restart (lock : FifoLock Holder Waiter) (hnext : f.lock.next? = some (.restart, lock)) :
      Locked cfg f (bringUpLoop cfg .restart { f with lock := lock.hold .restart }) {}

theorem takeLock_locked (h : f.takeLock cfg = some (f', e)) : Locked cfg f f' e := by
  unfold takeLock at h
  split at h
  · exact absurd h (by simp)
  · rename_i c command lock hnext
    have hgoes : Locked cfg f _ _ := .call c command lock hnext
    rwa [Option.some.inj h] at hgoes
  · rename_i lock hnext
    obtain ⟨rfl, rfl⟩ := Prod.mk.inj (Option.some.inj h)
    exact .restart lock hnext

/-- How the caller that holds the lock goes on. -/
inductive WentOn (f : Flight κ) : Flight κ → Effects → Prop
  | exchanges (c : CallId) (command : Command)
      (howner : f.lock.owner = some (.call c command (.waiting true))) (hready : f.state = .ready) :
      WentOn f (f.exchange c command).1 (f.exchange c command).2
  | refused (c : CallId) (command : Command)
      (howner : f.lock.owner = some (.call c command (.waiting true))) (hready : f.state ≠ .ready) :
      WentOn f (f.endCall c f.refusal none).1 (f.endCall c f.refusal none).2
  | answered (c : CallId) (command : Command) (k : ChildId) (tag : Tag) (out : Outcome)
      (howner : f.lock.owner = some (.call c command (.exchanging k tag (some out)))) :
      WentOn f (f.afterExchange c command out).1 (f.afterExchange c command out).2

theorem resumeCaller_wentOn (h : f.resumeCaller = some (f', e)) : WentOn f f' e := by
  unfold resumeCaller at h
  split at h
  · rename_i c command howner
    split at h
    · rename_i hready
      have hgoes := WentOn.exchanges c command howner hready
      rwa [Option.some.inj h] at hgoes
    · rename_i hready
      have hgoes := WentOn.refused c command howner hready
      rwa [Option.some.inj h] at hgoes
  · rename_i c command k tag out howner
    have hgoes := WentOn.answered c command k tag out howner
    rwa [Option.some.inj h] at hgoes
  · exact absurd h (by simp)

/-- The caller that waited for the flight to come up is turned away. -/
inductive TimedOut (f : Flight κ) : Flight κ → Effects → Prop
  | turnedAway (c : CallId) (command : Command) (woken : Bool)
      (howner : f.lock.owner = some (.call c command (.waiting woken))) :
      TimedOut f (f.endCall c (.unavailable "coordinator still starting" true) none).1
        (f.endCall c (.unavailable "coordinator still starting" true) none).2

theorem startupTimeout_timedOut (h : f.startupTimeout = some (f', e)) : TimedOut f f' e := by
  unfold startupTimeout at h
  split at h
  · rename_i c command woken howner
    have hgoes := TimedOut.turnedAway c command woken howner
    rwa [Option.some.inj h] at hgoes
  · exact absurd h (by simp)

/-! ### The thread

The seven ways of the thread.  What it comes back with goes to the client of the job, and what it
does to a child, it does to that of the job and to no other.
-/

/-- What the reader thread does.  `lost` asks that the child may be given up: it is gone, or
the wait has a deadline; a child that lives and has not answered a command is waited for
without end. -/
inductive Executed (f : Flight κ) : Flight κ → Prop
  | reap (w : BringUpTask) (rest : List Job) (hjob : f.executor = .reap w :: rest) :
      Executed f { f with executor := .reaping w f.child :: rest, child := none }
  | reapedNone (w : BringUpTask) (rest : List Job) (hjob : f.executor = .reaping w none :: rest) :
      Executed f (deliverReaped w { f with executor := rest })
  | reaped (w : BringUpTask) (k : ChildId) (rest : List Job)
      (hjob : f.executor = .reaping w (some k) :: rest) :
      Executed f (deliverReaped w
        { f.setChild k { f.children k with alive := false, reaped := true } with executor := rest })
  | unwritten (o : Client) (k : ChildId) (tag : Tag) (command : Command) (rest : List Job)
      (reason : String) (hjob : f.executor = .exchange o k tag command :: rest)
      (hdead : (f.children k).alive = false) :
      Executed f (deliver o (.lost reason) { f with executor := rest })
  | written (o : Client) (k : ChildId) (tag : Tag) (command : Command) (rest : List Job)
      (hjob : f.executor = .exchange o k tag command :: rest) :
      Executed f
        { f.setChild k { f.children k with inbox := (f.children k).inbox ++ [(tag, command)] } with
          executor := .awaitReply o k false :: rest
          written := Function.update f.written tag (some (o, k, command)) }
  | lost (o : Client) (k : ChildId) (timed : Bool) (rest : List Job) (reason : String)
      (hjob : f.executor = .awaitReply o k timed :: rest)
      (hmay : ¬ ((f.children k).alive = true ∧ ¬ timed = true)) :
      Executed f (deliver o (.lost reason) { f with executor := rest })
  | replied (o : Client) (k : ChildId) (timed : Bool) (rest : List Job) (s : Sent)
      (more : List Sent) (hjob : f.executor = .awaitReply o k timed :: rest)
      (hout : (f.children k).outbox = s :: more) :
      Executed f (deliver o (.reply s)
        { f.setChild k { f.children k with outbox := more } with executor := rest })

theorem runExecutor_executed {fails : Option String} (h : f.runExecutor fails = some f') :
    Executed f f' := by
  unfold runExecutor at h
  split at h
  · exact absurd h (by simp)
  · rename_i w rest hjob
    obtain rfl := Option.some.inj h
    exact .reap w rest hjob
  · rename_i w taken rest hjob
    cases taken with
    | none =>
        obtain rfl := Option.some.inj h
        exact .reapedNone w rest hjob
    | some k =>
        obtain rfl := Option.some.inj h
        exact .reaped w k rest hjob
  · rename_i o k tag command rest hjob
    dsimp only at h
    split at h
    · rename_i reason
      split at h
      · exact absurd h (by simp)
      · rename_i hdead
        obtain rfl := Option.some.inj h
        exact .unwritten o k tag command rest reason hjob (Bool.not_eq_true _ ▸ hdead)
    · obtain rfl := Option.some.inj h
      exact .written o k tag command rest hjob
  · rename_i o k timed rest hjob
    dsimp only at h
    split at h
    · rename_i reason
      split at h
      · exact absurd h (by simp)
      · rename_i hmay
        obtain rfl := Option.some.inj h
        exact .lost o k timed rest reason hjob hmay
    · split at h
      · exact absurd h (by simp)
      · rename_i s more hout
        obtain rfl := Option.some.inj h
        exact .replied o k timed rest s more hjob hout

/-- Nobody outside sees the thread. -/
theorem next_runExecutor {fails : Option String}
    (h : f.next cfg prog (.runExecutor fails) = some (f', e)) :
    f.runExecutor fails = some f' ∧ e = {} := by
  obtain ⟨g, hg, heq⟩ := Option.map_eq_some_iff.mp h
  obtain ⟨rfl, rfl⟩ := Prod.mk.inj heq
  exact ⟨hg, rfl⟩

end DonutServer.Flight
