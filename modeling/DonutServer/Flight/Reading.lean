/-
Who is waiting while a child has a command in hand.

Nothing tells a child that whoever sent it a command has given up.  It need not be told: a child
that has a command, or is about to take one off its pipe, reads what the command refers to for as
long as it lives, and for as long as it does the thread waits for its answer on behalf of whoever
sent the command.

`Attended` says so of a flight.  It rests on two facts about a step.  What the coroutines do
leaves the thread its work and gives no child a command (`Onward`); and the thread, while at most
one conversation is going on (`Serial`), has one job at a time, so that when it turns to another
there is no second child that it could have left waiting.
-/
import DonutServer.Flight.FrontEnd

namespace DonutServer

open Function

variable {κ σ : Type} {prog : ChildProgram κ σ} {cfg : CoordSettings}

/-- A living child has the command in hand, or on its way to it. -/
def Child.Reading (c : Child κ) (tag : Tag) (command : Command) : Prop :=
  c.alive = true ∧ (c.phase = .busy tag command ∨ (tag, command) ∈ c.inbox)

/-- A child with nothing in its pipe and nothing in hand reads nothing. -/
theorem Child.not_reading {c : Child κ} {tag : Tag} {command : Command} (hinbox : c.inbox = [])
    (hphase : ∀ tag command, c.phase ≠ .busy tag command) : ¬ c.Reading tag command := by
  rintro ⟨-, hbusy | hmem⟩
  · exact hphase tag command hbusy
  · rw [hinbox] at hmem
    exact absurd hmem List.not_mem_nil

/-- A child that owes an answer reads the command it owes it for. -/
theorem Owes.reading {k : ChildId} {tag tag' : Tag} {command command' : Command} {c : Child κ}
    (h : Owes prog k tag command c) (hreading : c.Reading tag' command') :
    tag' = tag ∧ command' = command ∧ c.outbox = [] := by
  obtain ⟨_, hbusy | hinbox⟩ := hreading
  · cases h with
    | unread _ _ hs =>
        rw [hbusy] at hs
        exact absurd hs (by simp [Phase.settled])
    | working _ hout hphase =>
        obtain ⟨rfl, rfl⟩ := Phase.busy.inj (hbusy.symm.trans hphase)
        exact ⟨rfl, rfl, hout⟩
    | answered _ _ _ hs =>
        rw [hbusy] at hs
        exact absurd hs (by simp [Phase.settled])
  · cases h with
    | unread hin hout _ =>
        rw [hin] at hinbox
        obtain ⟨rfl, rfl⟩ := Prod.mk.inj (List.mem_singleton.mp hinbox)
        exact ⟨rfl, rfl, hout⟩
    | working hin | answered _ hin =>
        rw [hin] at hinbox
        exact absurd hinbox List.not_mem_nil

/-- A child that takes a step takes up no command that it was not sent. -/
theorem ChildStep.reading {k : ChildId} {c c' : Child κ} {tag : Tag} {command : Command}
    (h : ChildStep prog k c c') (hreading : c'.Reading tag command) : c.Reading tag command := by
  obtain ⟨halive, hhand⟩ := hreading
  refine ⟨h.alive_before, ?_⟩
  cases h with
  | hello | fatal | finish =>
      rcases hhand with hbusy | hinbox
      · exact absurd hbusy (by simp)
      · exact Or.inr hinbox
  | receive tag' command' rest _ _ inbox =>
      rw [inbox]
      rcases hhand with hbusy | hinbox
      · obtain ⟨rfl, rfl⟩ := Phase.busy.inj hbusy
        exact Or.inr List.mem_cons_self
      · exact Or.inr (List.mem_cons_of_mem _ hinbox)
  | answer tag' command' world =>
      rcases hhand with hbusy | hinbox
      · have hsettled := phaseAfter_settled command'
        rw [show Flight.phaseAfter command' = .busy tag command from hbusy] at hsettled
        exact absurd hsettled (by simp [Phase.settled])
      · exact Or.inr hinbox
  | die => exact absurd halive (by simp)

namespace Flight

variable {f f' g : Flight κ} {w : BringUpTask} {e : Effects} {dead : Option ChildId}

/-! ### What the event loop leaves alone

Coroutines take turns on the event loop, and none of them touches the pipe of a child: they hand
the thread something to do, and they kill.  So of all that the loop does it is enough to know
that the thread keeps what it had to do, that no child comes to a command, and that a child other
than the one killed is as it was.
-/

/-- The child that a step ends. -/
def victim (f : Flight κ) : FlightAction σ → Option ChildId
  | .die k => some k
  | .requestRestart _ => f.child
  | .runExecutor _ =>
      match f.executor with
      | .reaping _ taken :: _ => taken
      | _ => none
  | _ => none

/-- The lock is held for an exchange that is under way. -/
def Exchanging (f : Flight κ) (c : CallId) (command : Command) (k : ChildId) (tag : Tag)
    (out : Option Outcome) : Prop :=
  f.lock.owner = some (.call c command (.exchanging k tag out))

/-- The thread is given no less to do, no child gets work, and none but `dead` is touched; an
exchange goes on as it did, or was handed to the thread just now. -/
structure Onward (dead : Option ChildId) (f f' : Flight κ) : Prop where
  executor : f.executor <+: f'.executor
  written : f'.written = f.written
  spawns : f.spawns ≤ f'.spawns
  kept : ∀ k < f.spawns, dead ≠ some k → f'.children k = f.children k
  outbox : ∀ k < f.spawns, (f'.children k).outbox = (f.children k).outbox
  reading : ∀ k tag command, (f'.children k).Reading tag command →
    (f.children k).Reading tag command
  owner : ∀ c command k tag out, f'.Exchanging c command k tag out →
    f.Exchanging c command k tag out ∨ ∃ o j t x, .exchange o j t x ∈ f'.executor

theorem Onward.refl : Onward dead f f :=
  ⟨List.prefix_rfl, rfl, Nat.le_refl _, fun _ _ _ => rfl, fun _ _ => rfl,
    fun _ _ _ hreading => hreading, fun _ _ _ _ _ ho => Or.inl ho⟩

/-- Only the lock is handed on, and no exchange comes of it. -/
theorem Onward.relock (h : Onward dead g f)
    (hsame : (f'.executor, f'.written, f'.spawns, f'.children) =
      (f.executor, f.written, f.spawns, f.children))
    (howner : ∀ c command k tag out, f'.Exchanging c command k tag out →
      f.Exchanging c command k tag out) : Onward dead g f' := by
  simp only [Prod.mk.injEq] at hsame
  obtain ⟨hexecutor, hwritten, hspawns, hchildren⟩ := hsame
  obtain ⟨h₁, h₂, h₃, h₄, h₅, h₆, h₇⟩ := h
  refine ⟨?_, ?_, ?_, ?_, ?_, ?_, fun c command k tag out ho => ?_⟩
  · rw [hexecutor]; exact h₁
  · rw [hwritten]; exact h₂
  · rw [hspawns]; exact h₃
  · rw [hchildren]; exact h₄
  · rw [hchildren]; exact h₅
  · rw [hchildren]; exact h₆
  · rw [hexecutor]
    exact h₇ c command k tag out (howner c command k tag out ho)

/-- Only the thread, the children and the lock are looked at. -/
theorem Onward.same (h : Onward dead g f)
    (hsame : (f'.executor, f'.written, f'.spawns, f'.children, f'.lock) =
      (f.executor, f.written, f.spawns, f.children, f.lock)) : Onward dead g f' := by
  simp only [Prod.mk.injEq] at hsame
  obtain ⟨hexecutor, hwritten, hspawns, hchildren, hlock⟩ := hsame
  refine h.relock (by simp only [hexecutor, hwritten, hspawns, hchildren]) ?_
  unfold Exchanging
  rw [hlock]
  exact fun _ _ _ _ _ ho => ho

/-- The lock goes to nobody who is on the thread. -/
theorem Onward.lockTo (h : Onward dead g f)
    (hsame : (f'.executor, f'.written, f'.spawns, f'.children) =
      (f.executor, f.written, f.spawns, f.children)) (hquiet : f'.exchanging = false) :
    Onward dead g f' := by
  refine h.relock hsame fun c command k tag out ho => ?_
  exact absurd (hquiet.symm.trans (exchanging_eq_true.mpr ⟨c, command, k, tag, out, ho⟩)) (by simp)

theorem Onward.submit {j : Job} (h : Onward dead g f) : Onward dead g (f.submit j) := by
  refine ⟨h.executor.trans (List.prefix_append _ _), h.written, h.spawns, h.kept, h.outbox,
    h.reading, fun c command k tag out ho => ?_⟩
  rcases h.owner c command k tag out ho with hbefore | ⟨o, i, t, x, hmem⟩
  · exact Or.inl hbefore
  · exact Or.inr ⟨o, i, t, x, List.mem_append_left _ hmem⟩

theorem Onward.setReady (h : Onward dead g f) : Onward dead g (setReady f) := by
  refine h.relock rfl fun c command k tag out ho => ?_
  obtain ⟨holder, howner, hwake⟩ := Option.map_eq_some_iff.mp ho
  rw [wake_eq_exchanging] at hwake
  rw [Exchanging, howner, hwake]

theorem Onward.endBringUp (h : Onward dead g f) : Onward dead g (endBringUp w f) := by
  cases w with
  | startup => exact h.same rfl
  | restart => exact h.lockTo rfl rfl

theorem Onward.startRestart (h : Onward dead g f) : Onward dead g (startRestart f) := by
  unfold Flight.startRestart
  dsimp only
  split_ifs <;> exact h.same rfl

/-- A kill ends the current child and nobody else. -/
theorem onward_killChild : Onward f.child f (killChild f) := by
  unfold Flight.killChild
  split
  next => exact .refl
  next k hk =>
    refine ⟨List.prefix_rfl, rfl, Nat.le_refl _, fun j _ hj => ?_, fun j _ => ?_,
      fun j tag command hj => ?_, fun _ _ _ _ _ ho => Or.inl ho⟩
    · have hjk : j ≠ k := fun heq => hj (by rw [hk, heq])
      simp [Flight.setChild, hjk]
    · by_cases hjk : j = k
      · subst hjk
        simp [Flight.setChild]
      · simp [Flight.setChild, hjk]
    · by_cases hjk : j = k
      · subst hjk
        exact absurd hj.1 (by simp [Flight.setChild])
      · simpa [Flight.setChild, hjk] using hj

theorem Onward.bringUpLoop (h : Onward dead g f) : Onward dead g (bringUpLoop cfg w f) := by
  unfold Flight.bringUpLoop
  dsimp only
  split_ifs
  · exact h.endBringUp
  · exact Onward.endBringUp (Onward.setReady (h.same rfl))
  · exact Onward.same (Onward.submit (h.same rfl)) rfl
  · exact h.same rfl

theorem Onward.retry {reason : String} {provokedBy : Option String} (h : Onward dead g f) :
    Onward dead g (retry cfg w reason provokedBy f).1 :=
  Onward.bringUpLoop (h.same rfl)

theorem Onward.readyUp (h : Onward dead g f) : Onward dead g (readyUp w f) :=
  Onward.endBringUp (Onward.setReady (h.same rfl))

theorem Onward.startExchange {o : Client} {k : ChildId} {command : Command} (h : Onward dead g f) :
    Onward dead g (startExchange o k command f) :=
  h.submit.same rfl

theorem Onward.reprime (h : Onward dead g f) : Onward dead g (reprime w f) := by
  unfold Flight.reprime
  split
  · exact h.readyUp
  · split_ifs
    · exact h.readyUp
    · split
      · exact Onward.readyUp (h.same rfl)
      · exact Onward.same (Onward.startExchange (h.same rfl)) rfl

/-- A child just started has nothing to do. -/
theorem Onward.spawnChild (h : Onward dead g f) : Onward dead g (spawnChild prog w f) := by
  have hold : ∀ k, k ≠ f.spawns → (Flight.spawnChild prog w f).children k = f.children k := by
    intro k hne
    simp [Flight.spawnChild, Flight.submit, Flight.setTask, Flight.setChild, hne]
  have hnew : ∀ k < g.spawns, k ≠ f.spawns := fun k hk => by
    have := h.spawns
    omega
  refine ⟨h.executor.trans (List.prefix_append _ _), h.written, Nat.le_succ_of_le h.spawns,
    fun k hk hdead => ?_, fun k hk => ?_, fun k tag command hk => ?_,
    fun c command k tag out ho => ?_⟩
  · rw [hold k (hnew k hk)]
    exact h.kept k hk hdead
  · rw [hold k (hnew k hk)]
    exact h.outbox k hk
  · by_cases hborn : k = f.spawns
    · subst hborn
      refine absurd hk (Child.not_reading ?_ ?_) <;>
        simp [Flight.spawnChild, Flight.submit, Flight.setTask, Flight.setChild, Child.born]
    · rw [hold k hborn] at hk
      exact h.reading k tag command hk
  · rcases h.owner c command k tag out ho with hbefore | ⟨o, i, t, x, hmem⟩
    · exact Or.inl hbefore
    · exact Or.inr ⟨o, i, t, x, List.mem_append_left _ hmem⟩

theorem Onward.afterHello {out : Outcome} (h : Onward dead g f) :
    Onward dead g (afterHello cfg w out f).1 := by
  unfold Flight.afterHello
  split
  · exact Onward.retry (h.same rfl)
  · dsimp only
    split
    · exact Onward.same (Onward.submit (h.same rfl)) rfl
    · exact Onward.reprime (h.same rfl)
    · exact Onward.retry (h.same rfl)

theorem Onward.afterReprime {args : PrepareCommand} {out : Outcome} (h : Onward dead g f) :
    Onward dead g (afterReprime cfg w args out f).1 := by
  unfold Flight.afterReprime
  split
  · exact Onward.retry (h.same rfl)
  · dsimp only
    split_ifs
    · exact Onward.readyUp (h.same rfl)
    · exact Onward.readyUp (h.same rfl)

theorem resumeBringUp_onward (h : f.resumeBringUp cfg prog w = some (f', e)) :
    Onward dead f f' := by
  cases resumeBringUp_resumed h with
  | startup => exact .bringUpLoop .refl
  | restart => exact .bringUpLoop (.lockTo .refl rfl rfl)
  | queued => exact .relock .refl rfl fun _ _ _ _ _ ho => ho
  | backoff => exact .same (.submit .refl) rfl
  | reaped => exact .spawnChild .refl
  | gaveUp => exact .endBringUp (.setReady .refl)
  | hello => exact .afterHello .refl
  | reprimed => exact .afterReprime .refl

theorem Onward.endCall {c : CallId} {result : Result} {loss : Option Loss} (h : Onward dead g f) :
    Onward dead g (f.endCall c result loss).1 :=
  h.lockTo rfl rfl

/-- An exchange is handed to the thread. -/
theorem Onward.exchange {c : CallId} {command : Command} (h : Onward dead g f) :
    Onward dead g (f.exchange c command).1 := by
  unfold Flight.exchange
  split
  next => exact h.endCall
  next k hk =>
    have hstarted : Onward dead g (Flight.startExchange (.call c) k command f) := h.startExchange
    obtain ⟨h₁, h₂, h₃, h₄, h₅, h₆, -⟩ := hstarted
    refine ⟨h₁, h₂, h₃, h₄, h₅, h₆, fun _ _ _ _ _ _ => Or.inr ⟨.call c, k, f.nextTag, command, ?_⟩⟩
    exact List.mem_append_right _ (List.mem_singleton_self _)

theorem Onward.underLock {c : CallId} {command : Command} (h : Onward dead g f) :
    Onward dead g (f.underLock c command).1 := by
  unfold Flight.underLock
  split_ifs
  · exact h.exchange
  · exact h.lockTo rfl rfl
  · exact h.endCall

theorem Onward.afterExchange {c : CallId} {command : Command} {out : Outcome}
    (h : Onward dead g f) : Onward dead g (f.afterExchange c command out).1 := by
  unfold Flight.afterExchange
  split
  · exact Onward.endCall (Onward.startRestart (h.same rfl))
  · dsimp only
    split
    · split_ifs
      · exact Onward.endCall (h.same rfl)
      · exact Onward.endCall (h.same rfl)
    · exact Onward.endCall (h.same rfl)

/-- **The event loop** leaves the thread its work, and the children theirs. -/
theorem next_onward {a : FlightAction σ} (hthread : ∀ fails, a ≠ .runExecutor fails)
    (hchild : a.child? = none) (h : f.next cfg prog a = some (f', e)) :
    Onward (f.victim a) f f' := by
  cases a with
  | call c command =>
      obtain rfl := congrArg Prod.fst (Option.some.inj h)
      unfold call
      split_ifs
      · exact .underLock .refl
      · exact .relock .refl rfl fun _ _ _ _ _ ho => ho
  | takeLock =>
      cases takeLock_locked h with
      | call c command lock hnext =>
          refine .underLock (.lockTo .refl rfl ?_)
          rw [Flight.exchanging, (FifoLock.next?_eq_some.mp hnext).2.2]
          rfl
      | restart lock _ => exact .bringUpLoop (.lockTo .refl rfl rfl)
  | resumeCaller =>
      cases resumeCaller_wentOn h with
      | exchanges => exact .exchange .refl
      | refused => exact .endCall .refl
      | answered => exact .afterExchange .refl
  | startupTimeout =>
      cases startupTimeout_timedOut h with
      | turnedAway => exact .endCall .refl
  | resumeBringUp w => exact resumeBringUp_onward h
  | requestRestart reason =>
      obtain rfl := congrArg Prod.fst (Option.some.inj h)
      unfold requestRestart
      split_ifs
      · exact .startRestart (.same .refl rfl)
      · exact .startRestart (.same onward_killChild rfl)
      · exact onward_killChild
  | runExecutor fails => exact absurd rfl (hthread fails)
  | boot k b | receive k | answer k world | finishDeferred k | die k =>
      exact absurd hchild (by simp [FlightAction.child?])

/-! ### What the thread waits for

The executor has one thread, and what it waits for is at the head of its jobs.  A wait without a
deadline is one for the answer to a command; the two others, for a first message and for the end of
a process, have deadlines of their own.
-/

/-- The task that waits for the answer to a command it had written to child `k`. -/
inductive Awaiting (f : Flight κ) (k : ChildId) (tag : Tag) : Command → Client → Prop
  | call (c : CallId) (command : Command)
      (owner : f.lock.owner = some (.call c command (.exchanging k tag none))) :
      Awaiting f k tag command (.call c)
  | replay (w : BringUpTask) (args : PrepareCommand) (task : f.tasks w = .repriming k tag args none) :
      Awaiting f k tag (.prepare args) (.task w)

/-- The job is one of an exchange or a bring-up, and what it awaits without a deadline is the
answer to a command that was written. -/
def Asked (prog : ChildProgram κ σ) (f : Flight κ) (j : Job) : Prop :=
  ∀ o k, j = .awaitReply o k false → ∃ tag command, f.written tag = some (o, k, command) ∧
    Owes prog k tag command (f.children k) ∧ f.Awaiting k tag command o

/-- The thread has the job of an exchange to do, or has done it. -/
theorem Exchange.asked {o : Client} {k : ChildId} {tag : Tag} {command : Command}
    {out : Option Outcome} (h : Exchange prog o k tag command f out)
    (hawaits : out = none → f.Awaiting k tag command o) :
    f.executor = [] ∨ ∃ j, f.executor = [j] ∧ Asked prog f j := by
  rcases out with _ | s | reason
  · rcases h with ⟨hex, -⟩ | ⟨hex, hwritten, howes⟩
    · exact Or.inr ⟨_, hex, fun _ _ heq => absurd heq (by simp)⟩
    · refine Or.inr ⟨_, hex, fun o' k' heq => ?_⟩
      obtain ⟨rfl, rfl, -⟩ := Job.awaitReply.inj heq
      exact ⟨tag, command, hwritten, howes, hawaits rfl⟩
  · exact Or.inl h.1
  · exact Or.inl h

/-- The thread has one thing to do at a time, and is asked for it. -/
theorem Serial.asked (h : Serial prog f) :
    f.executor = [] ∨ ∃ j, f.executor = [j] ∧ Asked prog f j := by
  cases h with
  | idle _ _ hex => exact Or.inl hex
  | caller c command k tag out howner _ _ _ _ hx =>
      refine hx.asked fun hnone => ?_
      subst hnone
      exact .call c command howner
  | bringUp w _ _ _ hd =>
      generalize htask : f.tasks w = b at hd
      cases b with
      | absent | scheduled | queued => exact hd.elim
      | backoff => exact Or.inl hd.1
      | reaping fatal done =>
          cases done with
          | false =>
              rcases hd.1 with hex | ⟨-, taken, hex⟩ <;>
                exact Or.inr ⟨_, hex, fun _ _ heq => absurd heq (by simp)⟩
          | true => exact Or.inl hd.1
      | hello k out =>
          rcases out with _ | s | reason
          · exact Or.inr ⟨_, hd.1, fun _ _ heq => absurd heq (by simp)⟩
          · exact Or.inl hd.1
          · exact Or.inl hd.1
      | repriming k tag args out =>
          refine hd.2.2.asked fun hnone => ?_
          subst hnone
          exact .replay w args htask

theorem Serial.executor_le (h : Serial prog f) : f.executor.length ≤ 1 := by
  rcases h.asked with hex | ⟨j, hex, -⟩ <;> rw [hex] <;> simp

/-- **What the thread awaits without a deadline** is the answer to a command that was written,
and the task that sent it waits. -/
theorem Serial.awaited {o : Client} {k : ChildId} (h : Serial prog f)
    (hmem : Job.awaitReply o k false ∈ f.executor) :
    f.executor = [.awaitReply o k false] ∧ ∃ tag command, f.written tag = some (o, k, command) ∧
      Owes prog k tag command (f.children k) ∧ f.Awaiting k tag command o := by
  rcases h.asked with hex | ⟨j, hex, hasked⟩
  · rw [hex] at hmem
    exact absurd hmem List.not_mem_nil
  · rw [hex] at hmem
    obtain rfl := List.mem_singleton.mp hmem
    exact ⟨hex, hasked o k rfl⟩

/-! ### Every run

The event loop keeps what the thread has to do and gives no child a command, so only the thread
itself can turn away from a child.  It turns to its next job for one of three reasons: the child
is gone, it has answered, or the job was not to wait for a child that reads.
-/

/-- The thread waits for the answer of every child that is reading. -/
def Attended (f : Flight κ) : Prop :=
  ∀ k tag command, (f.children k).Reading tag command →
    ∃ o, Job.awaitReply o k false ∈ f.executor

/-- At first nobody reads. -/
theorem started_attended : Attended (Flight.started prog) :=
  fun _ _ _ hreading => absurd hreading.1 (by simp [Flight.started, Child.unborn])

/-- What leaves the thread its work and gives no child any keeps every child attended. -/
theorem Onward.attended (h : Onward dead f f') (ha : Attended f) : Attended f' := by
  intro k tag command hreading
  obtain ⟨o, ho⟩ := ha k tag command (h.reading k tag command hreading)
  exact ⟨o, h.executor.subset ho⟩

/-- Nobody reads while the thread does something else. -/
theorem Attended.idle {j : Job} {rest : List Job} (h : Attended f) (hs : Serial prog f)
    (hjob : f.executor = j :: rest) (hj : ∀ o k, j ≠ .awaitReply o k false) (k : ChildId)
    (tag : Tag) (command : Command) : ¬ (f.children k).Reading tag command := by
  intro hreading
  obtain ⟨o, ho⟩ := h k tag command hreading
  exact hj o k (List.cons.inj (hjob.symm.trans (hs.awaited ho).1)).1

/-- Nobody reads. -/
theorem attended_of_idle (hidle : ∀ k tag command, ¬ (f'.children k).Reading tag command) :
    Attended f' := fun k tag command hreading => absurd hreading (hidle k tag command)

/-- A step of the thread: it turns away from a child only when that one is gone or has
answered. -/
theorem runExecutor_attended {fails : Option String} (h : Attended f) (hs : Serial prog f)
    (hstep : f.runExecutor fails = some f') : Attended f' := by
  cases runExecutor_executed hstep with
  | reap w rest hjob => exact attended_of_idle (h.idle hs hjob (by simp))
  | reapedNone w rest hjob =>
      refine attended_of_idle fun k => ?_
      rw [deliverReaped_children]
      exact h.idle hs hjob (by simp) k
  | reaped w k rest hjob =>
      refine attended_of_idle fun j tag command => ?_
      rw [deliverReaped_children]
      exact setChild_keeps (P := fun c => ¬ c.Reading tag command) j
        (h.idle hs hjob (by simp) j tag command) fun _ _ hreading => absurd hreading.1 (by simp)
  | unwritten o k tag command rest reason hjob hdead =>
      refine attended_of_idle fun j => ?_
      rw [deliver_children]
      exact h.idle hs hjob (by simp) j
  | written o k tag command rest hjob =>
      intro j tag' command' hreading
      by_cases hjk : j = k
      · subst hjk
        exact ⟨o, List.mem_cons_self⟩
      · refine absurd ?_ (h.idle hs hjob (by simp) j tag' command')
        simpa [Flight.setChild, hjk] using hreading
  | lost o k timed rest reason hjob hmay =>
      refine attended_of_idle fun j tag command hreading => ?_
      rw [deliver_children] at hreading
      obtain ⟨o', ho⟩ := h j tag command hreading
      obtain ⟨-, rfl, rfl⟩ :=
        Job.awaitReply.inj (List.cons.inj (hjob.symm.trans (hs.awaited ho).1)).1
      exact hmay ⟨hreading.1, by simp⟩
  | replied o k timed rest s more hjob hout =>
      refine attended_of_idle fun j tag command hreading => ?_
      rw [deliver_children] at hreading
      have hbefore : (f.children j).Reading tag command := by
        by_cases hjk : j = k
        · subst hjk
          simpa [Flight.setChild, Child.Reading] using hreading
        · simpa [Flight.setChild, hjk] using hreading
      obtain ⟨o', ho⟩ := h j tag command hbefore
      obtain ⟨hex, tag', command', -, howes, -⟩ := hs.awaited ho
      obtain ⟨-, rfl, -⟩ := Job.awaitReply.inj (List.cons.inj (hjob.symm.trans hex)).1
      rw [(howes.reading hbefore).2.2] at hout
      exact absurd hout (by simp)

/-- The step lemma. -/
theorem Attended.next {a : FlightAction σ} (h : Attended f) (hs : Serial prog f)
    (hstep : f.next cfg prog a = some (f', e)) : Attended f' := by
  by_cases hthread : ∃ fails, a = .runExecutor fails
  · obtain ⟨fails, rfl⟩ := hthread
    exact runExecutor_attended h hs (next_runExecutor hstep).1
  · cases hchild : a.child? with
    | none => exact (next_onward (fun fails heq => hthread ⟨fails, heq⟩) hchild hstep).attended h
    | some k =>
        obtain ⟨-, c', hc', rfl⟩ := next_child hchild hstep
        intro j tag command hreading
        refine h j tag command ?_
        by_cases hjk : j = k
        · subst hjk
          exact hc'.reading (by simpa [Flight.setChild] using hreading)
        · simpa [Flight.setChild, hjk] using hreading

/-- **Whoever sent the command waits for as long as it is being read.** -/
theorem Attended.awaiting (h : Attended f) (hs : Serial prog f) {k : ChildId} {tag : Tag}
    {command : Command} (hreading : (f.children k).Reading tag command) :
    ∃ o, f.executor = [.awaitReply o k false] ∧ f.written tag = some (o, k, command) ∧
      f.Awaiting k tag command o ∧ (f.children k).outbox = [] := by
  obtain ⟨o, ho⟩ := h k tag command hreading
  obtain ⟨hex, tag', command', hwritten, howes, hawaits⟩ := hs.awaited ho
  obtain ⟨rfl, rfl, hout⟩ := howes.reading hreading
  exact ⟨o, hex, hwritten, hawaits, hout⟩

/-- It is the bring-up that replays a prepare, or the caller that holds the lock. -/
theorem Attended.exchange (h : Attended f) (hs : Serial prog f) {k : ChildId} {tag : Tag}
    {command : Command} (hreading : (f.children k).Reading tag command) :
    (∃ args, command = .prepare args) ∨
      ∃ c, f.lock.owner = some (.call c command (.exchanging k tag none)) := by
  obtain ⟨o, -, -, hawaits, -⟩ := h.awaiting hs hreading
  cases hawaits with
  | call c command howner => exact Or.inr ⟨c, howner⟩
  | replay w args htask => exact Or.inl ⟨args, rfl⟩

end Flight

end DonutServer
