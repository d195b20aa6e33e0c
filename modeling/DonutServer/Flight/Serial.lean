/-
One conversation at a time.

Whoever talks to the child does so through the one executor thread, and while at
most one `_bring_up` is active there is at most one such conversation: a caller's
exchange, or a bring-up's reap, hello or replay, and never two of them.  `Serial`
says which one is going on and how far it got, down to what lies in the pipe; each
segment then takes one case of it to another.

Two facts carry the induction.  An exchange is only ever started on a pipe with
nothing in it (`Quiet`), because a caller starts one in READY alone and READY is
only reached with a child whose hello has been read.  And the startup task is gone
by then, because nothing else can make the flight READY while it is active.
-/
import DonutServer.Flight.Moves

namespace DonutServer

open Function

variable {κ σ : Type} {prog : ChildProgram κ σ}

/-! ### The pipe of one child

What lies in a pipe follows from what was written to it and what was read.  A child that owes
nothing has an empty pipe and is back in `recv`; a child that owes an answer has the command in the
pipe, in its hands, or has answered it, and there is nothing else on the way in either direction.
-/

/-- Not on a command, and not before the first message. -/
def Phase.settled : Phase → Bool
  | .idle | .deferred | .exiting => true
  | _ => false

/-- Nothing is in the pipe and the child owes nothing. -/
structure Quiet (c : Child κ) : Prop where
  inbox : c.inbox = []
  outbox : c.outbox = []
  settled : c.phase.settled = true

/-- `s` is what child `k` made of `command`, written to it under `tag`, and nothing has
changed the child's memory since. -/
structure Answers (prog : ChildProgram κ σ) (k : ChildId) (tag : Tag) (command : Command)
    (c : Child κ) (s : Sent) : Prop where
  sender : s.sender = k
  answers : s.answers = some (tag, command)
  ran : ∃ world mem, prog.run world command mem = (s.msg, c.mem)

/-- The child owes the answer to one command, which is in exactly one of three places:
still in the pipe, in the child's hands, or answered and on its way back. -/
inductive Owes (prog : ChildProgram κ σ) (k : ChildId) (tag : Tag) (command : Command)
    (c : Child κ) : Prop
  | unread (inbox : c.inbox = [(tag, command)]) (outbox : c.outbox = [])
      (settled : c.phase.settled = true)
  | working (inbox : c.inbox = []) (outbox : c.outbox = []) (phase : c.phase = .busy tag command)
  | answered (s : Sent) (inbox : c.inbox = []) (outbox : c.outbox = [s])
      (settled : c.phase.settled = true) (answers : Answers prog k tag command c s)

/-- The child owes its first message, or has sent it. -/
inductive HelloDue (prog : ChildProgram κ σ) (k : ChildId) (c : Child κ) : Prop
  | booting (inbox : c.inbox = []) (outbox : c.outbox = []) (phase : c.phase = .booting)
      (mem : c.mem = prog.start)
  | said (inbox : c.inbox = []) (outbox : c.outbox = [⟨.hello, k, none⟩]) (phase : c.phase = .idle)
      (mem : c.mem = prog.start)
  | fatal (error : String) (inbox : c.inbox = []) (outbox : c.outbox = [⟨.fatal error, k, none⟩])
      (phase : c.phase = .exiting)

/-! ### The conversation that is going on

Each case of `Serial` ties together what the front-end waits for, what the thread has to do and
what lies in the pipe.  That is more than any one result needs, but less would not be kept by the
next step: whoever starts an exchange relies on an empty pipe, which only the end of the exchange
before it can promise.
-/

/-- The other bring-up task. -/
def BringUpTask.other : BringUpTask → BringUpTask
  | .startup => .restart
  | .restart => .startup

/-- The holder is on the reader thread. -/
def Holder.exchanging : Holder → Bool
  | .call _ _ (.exchanging _ _ _) => true
  | _ => false

namespace Flight

variable {f : Flight κ}

/-- A caller is on the reader thread. -/
def exchanging (f : Flight κ) : Bool := f.lock.owner.any Holder.exchanging

/-- How far the exchange of `command` with child `k` got. -/
def Exchange (prog : ChildProgram κ σ) (o : Client) (k : ChildId) (tag : Tag) (command : Command)
    (f : Flight κ) : Option Outcome → Prop
  | none =>
      (f.executor = [.exchange o k tag command] ∧ Quiet (f.children k)) ∨
      (f.executor = [.awaitReply o k false] ∧ f.written tag = some (o, k, command) ∧
        Owes prog k tag command (f.children k))
  | some (.reply s) =>
      f.executor = [] ∧ f.written tag = some (o, k, command) ∧ Quiet (f.children k) ∧
        Answers prog k tag command (f.children k) s
  | some (.lost _) => f.executor = []

/-- The thread is asked to reap, and may have begun. -/
def Reaping (w : BringUpTask) (f : Flight κ) : Prop :=
  f.executor = [.reap w] ∨ (f.child = none ∧ ∃ taken, f.executor = [.reaping w taken])

/-- How far the bring-up suspended at `b` got. -/
def Doing (prog : ChildProgram κ σ) (w : BringUpTask) (f : Flight κ) : BringUp → Prop
  | .absent | .scheduled | .queued => False
  | .backoff => f.executor = [] ∧ f.inFlight = 0
  | .reaping _ false => Reaping w f ∧ f.inFlight = 0
  | .reaping _ true => f.executor = [] ∧ f.child = none ∧ f.inFlight = 0
  | .hello k none =>
      f.executor = [.awaitReply (.task w) k true] ∧ f.child = some k ∧ f.inFlight = 1 ∧
        HelloDue prog k (f.children k)
  | .hello k (some (.reply s)) =>
      f.executor = [] ∧ f.child = some k ∧ f.inFlight = 1 ∧ s.answers = none ∧
        ((s.msg = .hello ∧ Quiet (f.children k) ∧ (f.children k).mem = prog.start) ∨
          ∃ error, s.msg = .fatal error)
  | .hello k (some (.lost _)) => f.executor = [] ∧ f.child = some k ∧ f.inFlight = 1
  | .repriming k tag args out =>
      f.child = some k ∧ f.inFlight = 1 ∧ Exchange prog (.task w) k tag (.prepare args) f out

/-- The one conversation that is going on, if any.  In READY with nothing going on the pipe is
empty: that is what the next caller starts from. -/
inductive Serial (prog : ChildProgram κ σ) (f : Flight κ) : Prop
  | idle (inactive : ∀ w, (f.tasks w).active = false) (quiet : f.exchanging = false)
      (executor : f.executor = []) (inFlight : f.inFlight = 0)
      (ready : f.state = .ready → ∀ k, f.child = some k → Quiet (f.children k))
  | bringUp (w : BringUpTask) (active : (f.tasks w).active = true)
      (other : (f.tasks w.other).active = false) (quiet : f.exchanging = false)
      (doing : Doing prog w f (f.tasks w))
  | caller (c : CallId) (command : Command) (k : ChildId) (tag : Tag) (out : Option Outcome)
      (owner : f.lock.owner = some (.call c command (.exchanging k tag out)))
      (inactive : ∀ w, (f.tasks w).active = false) (ready : f.state = .ready)
      (child : f.child = some k) (inFlight : f.inFlight = 1)
      (exchange : Exchange prog (.call c) k tag command f out)

/-- How the two bring-up tasks stand to the lock and to each other. -/
structure Held (f : Flight κ) : Prop where
  holds : (f.tasks .restart).active = true ↔ f.lock.owner = some .restart
  queued : f.lock.waiters.count .restart = if f.tasks .restart = .queued then 1 else 0
  startup : f.tasks .startup ≠ .queued
  order : f.tasks .startup = .scheduled → f.tasks .restart = .absent ∨ f.tasks .restart = .scheduled
  ready : f.state = .ready → f.tasks .startup = .absent

/-- Every child spawned is reaped, but for the newest, which may be the current one or
in the thread's hands. -/
structure Accounted (prog : ChildProgram κ σ) (f : Flight κ) : Prop where
  spawned : ∀ k, f.spawns ≤ k → f.children k = .unborn prog
  known : ∀ k, f.child = some k → k + 1 = f.spawns
  taken : ∀ w k, f.executor = [.reaping w (some k)] → k + 1 = f.spawns
  reaped : ∀ k, k < f.spawns →
    (f.children k).reaped = true ∨ f.child = some k ∨ ∃ w, f.executor = [.reaping w (some k)]
  dead : ∀ k, (f.children k).reaped = true → (f.children k).alive = false

/-- What every run keeps while at most one `_bring_up` is active at a time.  The three parts are
kept together because each step of one of them uses the others. -/
structure Inv (prog : ChildProgram κ σ) (f : Flight κ) : Prop where
  held : Held f
  serial : Serial prog f
  accounted : Accounted prog f

/-- At most one `_bring_up` is active. -/
def AtMostOneBringUp (f : Flight κ) : Prop :=
  ¬ ((f.tasks .startup).active = true ∧ (f.tasks .restart).active = true)

/-! ### What an invariant looks at

The books a flight keeps (what is primed, what was lost and why) are in none of
the above, so writing them changes nothing here.
-/

theorem Held.congr {g : Flight κ} (h : Held f)
    (hsame : (g.state, g.lock, g.tasks) = (f.state, f.lock, f.tasks)) : Held g := by
  simp only [Prod.mk.injEq] at hsame
  obtain ⟨hstate, hlock, htasks⟩ := hsame
  refine ⟨?_, ?_, ?_, ?_, ?_⟩
  · rw [hlock, htasks]; exact h.holds
  · rw [hlock, htasks]; exact h.queued
  · rw [htasks]; exact h.startup
  · rw [htasks]; exact h.order
  · rw [hstate, htasks]; exact h.ready

theorem Accounted.congr {g : Flight κ} (h : Accounted prog f)
    (hsame : (g.executor, g.child, g.spawns, g.children) =
      (f.executor, f.child, f.spawns, f.children)) : Accounted prog g := by
  simp only [Prod.mk.injEq] at hsame
  obtain ⟨hexecutor, hchild, hspawns, hchildren⟩ := hsame
  refine ⟨?_, ?_, ?_, ?_, ?_⟩
  · rw [hspawns, hchildren]; exact h.spawned
  · rw [hspawns, hchild]; exact h.known
  · rw [hspawns, hexecutor]; exact h.taken
  · rw [hspawns, hchildren, hchild, hexecutor]; exact h.reaped
  · rw [hchildren]; exact h.dead

theorem Exchange.congr {g : Flight κ} {o : Client} {k : ChildId} {tag : Tag} {command : Command}
    {out : Option Outcome} (h : Exchange prog o k tag command f out)
    (hsame : (g.executor, g.children, g.written) = (f.executor, f.children, f.written)) :
    Exchange prog o k tag command g out := by
  simp only [Prod.mk.injEq] at hsame
  obtain ⟨hexecutor, hchildren, hwritten⟩ := hsame
  unfold Exchange at h ⊢
  rw [hexecutor, hchildren, hwritten]
  exact h

theorem Doing.congr {g : Flight κ} {w : BringUpTask} {b : BringUp} (h : Doing prog w f b)
    (hsame : (g.executor, g.inFlight, g.child, g.children, g.written) =
      (f.executor, f.inFlight, f.child, f.children, f.written)) : Doing prog w g b := by
  simp only [Prod.mk.injEq] at hsame
  obtain ⟨hexecutor, hinFlight, hchild, hchildren, hwritten⟩ := hsame
  unfold Doing Reaping at h ⊢
  rw [hexecutor, hinFlight, hchild, hchildren]
  split <;> first
    | exact h
    | exact ⟨h.1, h.2.1, h.2.2.congr (by rw [hexecutor, hchildren, hwritten])⟩

/-! ### What the small updates leave

The two bring-up tasks are told apart by name alone, and whoever holds the lock by its stage.
These lemmas say what an update of one leaves of the other, so that no later proof opens the state
record to see it.
-/

@[simp] theorem setTask_self (w : BringUpTask) (b : BringUp) :
    (f.setTask w b).tasks w = b := update_self ..

@[simp] theorem setTask_startup (b : BringUp) :
    (f.setTask .restart b).tasks .startup = f.tasks .startup := rfl

@[simp] theorem setTask_restart (b : BringUp) :
    (f.setTask .startup b).tasks .restart = f.tasks .restart := rfl

theorem setTask_other (w : BringUpTask) (b : BringUp) :
    (f.setTask w b).tasks w.other = f.tasks w.other := by
  cases w <;> rfl

@[simp] theorem wake_exchanging (h : Holder) : h.wake.exchanging = h.exchanging := by
  cases h with
  | restart => rfl
  | call c command stage => cases stage <;> rfl

@[simp] theorem wake_eq_restart {h : Holder} : h.wake = .restart ↔ h = .restart := by
  cases h with
  | restart => simp [Holder.wake]
  | call c command stage => cases stage <;> simp [Holder.wake]

@[simp] theorem wake_eq_exchanging {h : Holder} {c : CallId} {command : Command} {k : ChildId}
    {tag : Tag} {out : Option Outcome} :
    h.wake = .call c command (.exchanging k tag out) ↔
      h = .call c command (.exchanging k tag out) := by
  cases h with
  | restart => simp [Holder.wake]
  | call c' command' stage => cases stage <;> simp [Holder.wake]

theorem exchanging_eq_true :
    f.exchanging = true ↔
      ∃ c command k tag out, f.lock.owner = some (.call c command (.exchanging k tag out)) := by
  unfold exchanging
  rcases howner : f.lock.owner with _ | h
  · simp
  · rcases h with ⟨c, command, stage⟩ | _
    · cases stage <;> simp [Holder.exchanging]
    · simp [Holder.exchanging]

/-- **A caller on the thread is the one conversation.** -/
theorem Serial.served {prog : ChildProgram κ σ} {c : CallId} {command : Command} {k : ChildId}
    {tag : Tag} {out : Option Outcome} (h : Serial prog f)
    (howner : f.lock.owner = some (.call c command (.exchanging k tag out))) :
    (∀ w, (f.tasks w).active = false) ∧ f.state = .ready ∧ f.child = some k ∧ f.inFlight = 1 ∧
      Exchange prog (.call c) k tag command f out := by
  have hexchanging : f.exchanging = true := exchanging_eq_true.mpr ⟨_, _, _, _, _, howner⟩
  cases h with
  | idle _ hquiet _ _ _ | bringUp _ _ _ hquiet _ =>
      exact absurd (hquiet.symm.trans hexchanging) Bool.false_ne_true
  | caller c' command' k' tag' out' howner' inactive hready hchild hin hexchange =>
      obtain ⟨rfl, rfl, hstage⟩ := Holder.call.inj (Option.some.inj (howner.symm.trans howner'))
      obtain ⟨rfl, rfl, rfl⟩ := Stage.exchanging.inj hstage
      exact ⟨inactive, hready, hchild, hin, hexchange⟩

end Flight

end DonutServer
