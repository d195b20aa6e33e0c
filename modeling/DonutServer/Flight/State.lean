/-
One flight: a `Coord`, the children it spawns, and the thread it talks to them on.

The event loop runs one task at a time and switches only at an `await`, so a task
is kept as the await it is suspended at.  Four kinds of task touch a `Coord`: the
callers of `send_command`, the two tasks that may run `_bring_up`, the thread of
its one-worker executor, and the child at the other end of the pipe.

What a caller is doing under `_lock` is kept in the lock, as its holder.  The two
bring-up tasks are kept by name: `_startup_task`, which never takes the lock, and
`_restart_task`, which runs under it.

The pipe carries no request ids.  A `Sent` message records which child sent it and
which written command it answers; nothing in the front-end reads either, and the
pairing results say that they are what the front-end takes them to be.
-/
import Mathlib.Logic.Function.Basic
import DonutServer.Lib.FifoLock
import DonutServer.Lib.System
import DonutServer.Commands

namespace DonutServer

/-! ### Children

A child is a process at the other end of a pipe that is written to and read from in order.  It is
kept as what lies in the two directions of the pipe and how far its loop got; its memory is a
parameter, so that the same flight can be run with children that answer as they are told and with
the coordinator's own loop.
-/

/-- Children are numbered in the order they are spawned. -/
abbrev ChildId := Nat

/-- The number of a command written to a pipe, in the order of the exchanges. -/
abbrev Tag := Nat

abbrev CallId := Nat

/-- A message on its way to the front-end.  `sender` and `answers` are what an observer of all the
processes would know of it; the message itself carries neither, and no task of the front-end looks
at them. -/
structure Sent where
  msg : Msg
  sender : ChildId
  answers : Option (Tag × Command)
  deriving DecidableEq

/-- How far a child got: before its first message, in `recv`, on a command, on the
work it put off until after a reply, or past its last message. -/
inductive Phase
  | booting
  | idle
  | busy (tag : Tag) (command : Command)
  | deferred
  | exiting
  deriving DecidableEq

/-- A child process and the two directions of its pipe.  `mem` is what its module
globals hold. -/
structure Child (κ : Type) where
  alive : Bool
  reaped : Bool
  phase : Phase
  inbox : List (Tag × Command)
  outbox : List Sent
  mem : κ

/-- What a child starts with and what it makes of a command: the answer it sends, and its memory
afterwards.  `σ` is everything outside the process that decides how a command goes, chosen anew for
every answer, so that a run of a flight is about whatever the world may do. -/
structure ChildProgram (κ σ : Type) where
  start : κ
  run : σ → Command → κ → Msg × κ

/-- A child that answers as it is told to, like the fake coordinator of the tests. -/
def ChildProgram.scripted : ChildProgram Unit Msg := ⟨(), fun reply _ mem => (reply, mem)⟩

/-- A child's first message. -/
inductive Boot
  | hello
  | fatal (error : String)
  deriving DecidableEq

/-- A process that was never started. -/
def Child.unborn {κ σ : Type} (prog : ChildProgram κ σ) : Child κ :=
  ⟨false, false, .booting, [], [], prog.start⟩

/-- A process just started. -/
def Child.born {κ σ : Type} (prog : ChildProgram κ σ) : Child κ :=
  ⟨true, false, .booting, [], [], prog.start⟩

/-! ### The front-end's tasks

A task is what it is suspended at.  The two bring-up tasks have a name each, since the source keeps
each in an attribute of its own and tests that attribute; callers are as many as there are, so that
one is found through the lock, either as its holder or as one who waits for it.
-/

inductive CoordState
  | starting
  | ready
  | restarting
  | degraded
  | stopping
  deriving DecidableEq, Repr

/-- `_state.value`. -/
def CoordState.value : CoordState → String
  | .starting => "starting"
  | .ready => "ready"
  | .restarting => "restarting"
  | .degraded => "degraded"
  | .stopping => "stopping"

/-- The tasks that run `_bring_up`. -/
inductive BringUpTask
  | startup
  | restart
  deriving DecidableEq, Repr

/-- What the reader thread came back with: a message, or `CoordinatorLost`. -/
inductive Outcome
  | reply (s : Sent)
  | lost (reason : String)
  deriving DecidableEq

/-- Where a bring-up task is suspended.  `absent` is a task that does not exist or
has returned; `out` is empty until the thread has finished the awaited work.  A
reap is either the one before a spawn, or the one after a fatal first message. -/
inductive BringUp
  | absent
  | scheduled
  | queued
  | backoff
  | reaping (fatal : Option String) (done : Bool)
  | hello (k : ChildId) (out : Option Outcome)
  | repriming (k : ChildId) (tag : Tag) (args : PrepareCommand) (out : Option Outcome)
  deriving DecidableEq

/-- The task is inside `_bring_up`. -/
def BringUp.active : BringUp → Bool
  | .absent | .scheduled | .queued => false
  | _ => true

/-- Where a caller of `send_command` that holds `_lock` is suspended: on
`_ready_event`, where `woken` says its wait is over, or on the reader thread. -/
inductive Stage
  | waiting (woken : Bool)
  | exchanging (k : ChildId) (tag : Tag) (out : Option Outcome)
  deriving DecidableEq

/-- Who holds `_lock`. -/
inductive Holder
  | call (c : CallId) (command : Command) (stage : Stage)
  | restart
  deriving DecidableEq

/-- The caller holding the lock is told that `_ready_event` is set. -/
def Holder.wake : Holder → Holder
  | .call c command (.waiting _) => .call c command (.waiting true)
  | h => h

/-- Who waits for `_lock`. -/
inductive Waiter
  | call (c : CallId) (command : Command)
  | restart
  deriving DecidableEq

/-! ### The reader thread

The executor has one worker, so its queue is a list of jobs, and a job is in the queue until it is
done.  A job that takes more than one look at the child stays at the head in between, changed to
what is left of it.
-/

/-- Whom the thread answers. -/
inductive Client
  | task (w : BringUpTask)
  | call (c : CallId)
  deriving DecidableEq

/-- Work handed to the executor.  `reaping` is a `_reap` past its first lines, which
took the child out of `_proc`; `awaitReply` is a loop in `_await_reply`, `timed`
when it has a deadline. -/
inductive Job
  | reap (w : BringUpTask)
  | reaping (w : BringUpTask) (taken : Option ChildId)
  | exchange (o : Client) (k : ChildId) (tag : Tag) (command : Command)
  | awaitReply (o : Client) (k : ChildId) (timed : Bool)
  deriving DecidableEq

/-! ### What the front-end remembers

The rest of a `Coord` is books: what was lost and why, what was prepared, which config that left.
They decide nothing about who talks to whom, and are kept because the claims about what is told to
a client are about them.
-/

/-- `_last_loss`, its exit code, pid and time apart. -/
structure Loss where
  reason : String
  provokedBy : Option String
  generation : Nat
  deriving DecidableEq, Repr

/-- The task's config as of the last successful prepare, with the generation of the child it was
read from: `GET /config` calls it stale once there is a newer child. -/
structure ConfigSnapshot where
  dump : String
  generation : Nat
  deriving DecidableEq, Repr

/-- The settings a `Coord` is built with.  An empty `_backoff` would make its own
index fail. -/
structure CoordSettings where
  maxRestartAttempts : Nat
  backoff : List Nat
  backoff_ne : backoff ≠ []

/-- `MAX_RESTART_ATTEMPTS` and `RESTART_BACKOFF_S`. -/
def CoordSettings.standard : CoordSettings := ⟨3, [0, 2, 5], by simp⟩

/-- One `Coord`, its children and its reader thread.  `acked` remembers, for each
child, the last prepare whose successful reply the front-end has taken (a reply still in the pipe
is not one), and `written` every command put on a pipe: whose it was and which child got it. -/
structure Flight (κ : Type) where
  state : CoordState
  readyEvent : Bool
  lock : FifoLock Holder Waiter
  inFlight : Nat
  tasks : BringUpTask → BringUp
  executor : List Job
  child : Option ChildId
  spawns : Nat
  generation : Nat
  restartAttempts : Nat
  primedArgs : Option PrepareCommand
  configSnapshot : Option ConfigSnapshot
  lossProvokedBy : Option String
  lastLoss : Option Loss
  degradedReason : Option String
  fatalReason : Option String
  reprimeError : Option String
  children : ChildId → Child κ
  nextTag : Tag
  written : Tag → Option (Client × ChildId × Command)
  acked : ChildId → Option PrepareCommand

/-- How `send_command` ends.  A refusal says whether it carries the number of its flight, which
one that comes out of `_exchange` does not. -/
inductive Result
  | response (s : Sent)
  | lost (reason : String)
  | unavailable (reason : String) (tagged : Bool)
  deriving DecidableEq

/-- What a step lets the rest of the server see: a loss, told to `on_restart`, and a call that came
to its end.  Both are read by the server in the same turn of the event loop, before any other task
can run. -/
structure Effects where
  loss : Option Loss := none
  finished : Option (CallId × Result) := none
  deriving DecidableEq

end DonutServer
