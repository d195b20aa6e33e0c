/-
What each task of a flight does between two awaits.

A segment is the code a task runs from one `await` to the next.  `Flight.next` says
which segments can run in a state and what each leaves; a run of a flight is any
sequence of them, in any order.  Shutting down is left out: nothing here sets
`STOPPING`, so a run is one before `aclose`.
-/
import DonutServer.Flight.State

namespace DonutServer

open Function

variable {κ σ : Type}

/-- What a segment leaves, and what of it the server sees. -/
abbrev Flight.After (κ : Type) := Flight κ × Effects

/-- `_backoff[min(attempts, len(_backoff) - 1)]`. -/
def CoordSettings.delay (cfg : CoordSettings) (attempts : Nat) : Nat :=
  cfg.backoff.get ⟨min attempts (cfg.backoff.length - 1), by
    have := List.length_pos_iff.mpr cfg.backoff_ne
    omega⟩

namespace Flight

variable (cfg : CoordSettings) (prog : ChildProgram κ σ)

/-- The state `start()` returns with: the block made, the first bring-up scheduled. -/
def started : Flight κ where
  state := .starting
  readyEvent := false
  lock := .free
  inFlight := 0
  tasks := fun w => match w with
    | .startup => .scheduled
    | .restart => .absent
  executor := []
  child := none
  spawns := 0
  generation := 0
  restartAttempts := 0
  primedArgs := none
  configSnapshot := none
  lossProvokedBy := none
  lastLoss := none
  degradedReason := none
  fatalReason := none
  reprimeError := none
  children := fun _ => .unborn prog
  nextTag := 0
  written := fun _ => none
  acked := fun _ => none

/-- `busy`: whether a command is running or queued here. -/
def busy (f : Flight κ) : Bool := 0 < f.inFlight || f.lock.locked

/-! ### Small updates

Each of these is one line of the source that several segments share.  Later modules say of each
what it leaves alone, and never unfold a segment down to its fields.
-/

def setTask (w : BringUpTask) (b : BringUp) (f : Flight κ) : Flight κ :=
  { f with tasks := update f.tasks w b }

def setChild (k : ChildId) (c : Child κ) (f : Flight κ) : Flight κ :=
  { f with children := update f.children k c }

/-- `run_in_executor`. -/
def submit (j : Job) (f : Flight κ) : Flight κ := { f with executor := f.executor ++ [j] }

/-- `_ready_event.set()`. -/
def setReady (f : Flight κ) : Flight κ :=
  { f with readyEvent := true, lock := ⟨f.lock.owner.map Holder.wake, f.lock.waiters⟩ }

/-- A bring-up task returns; `_restart` lets go of `_lock` and forgets itself.  What the flight is
left in was decided before. -/
def endBringUp (w : BringUpTask) (f : Flight κ) : Flight κ :=
  match w with
  | .startup => f.setTask .startup .absent
  | .restart => { f.setTask .restart .absent with lock := f.lock.release }

/-- Hand a command to the reader thread. -/
def startExchange (o : Client) (k : ChildId) (command : Command) (f : Flight κ) : Flight κ :=
  { f.submit (.exchange o k f.nextTag command) with
    inFlight := f.inFlight + 1
    nextTag := f.nextTag + 1 }

/-- What is acknowledged once `s` has reached the task that waited for it. -/
def acknowledge (s : Sent) (f : Flight κ) : ChildId → Option PrepareCommand :=
  match s.answers with
  | some (_, .prepare args) => if s.msg.ok then update f.acked s.sender (some args) else f.acked
  | _ => f.acked

/-- A reply reaches the task that waited for it. -/
def handOver (s : Sent) (f : Flight κ) : Flight κ := { f with acked := f.acknowledge s }

/-! ### Losing a child

A loss is noted first and acted on afterwards: the reason goes into the books, the restart is
scheduled, and only then is the caller told.  `request_restart` is the one place where the
front-end ends a child itself, and it does so without waiting for whoever is talking to it.
-/

/-- `_note_loss`. -/
def noteLoss (reason : String) (provokedBy : Option String) (f : Flight κ) : Flight κ :=
  { f with
    lastLoss := some ⟨reason, provokedBy, f.generation⟩
    lossProvokedBy := provokedBy }

/-- The loss as `on_restart` is told of it. -/
def lossOf (reason : String) (provokedBy : Option String) (f : Flight κ) : Loss :=
  ⟨reason, provokedBy, f.generation⟩

/-- `_start_restart`. -/
def startRestart (f : Flight κ) : Flight κ :=
  if f.state = .stopping then f
  else
    let f' := { f with state := .restarting, readyEvent := false }
    if f.tasks .restart = .absent then f'.setTask .restart .scheduled else f'

/-- `kill_child`; the signal is taken to arrive at once. -/
def killChild (f : Flight κ) : Flight κ :=
  match f.child with
  | none => f
  | some k => f.setChild k { f.children k with alive := false }

/-- `request_restart`. -/
def requestRestart (reason : String) (f : Flight κ) : After κ :=
  if f.state = .degraded then
    (startRestart
      { f with restartAttempts := 0, degradedReason := none, fatalReason := none }, {})
  else if f.inFlight = 0 then
    (startRestart ((killChild f).noteLoss reason none),
      { loss := some (f.lossOf reason none) })
  else
    (killChild f, {})

/-! ### Bringing a child up

`_bring_up` is a loop with four awaits: the back-off, the reap of the old child, the hello of the
new one, and the replay of the last prepare.  Each of the definitions below is the code between two
of these, and ends with the task suspended at the next one, or gone.
-/

/-- `_note_prepared`. -/
def notePrepared (args : PrepareCommand) (resp : Msg) (f : Flight κ) : Flight κ :=
  { f with
    primedArgs := some args
    configSnapshot := match resp.configDump with
      | none => f.configSnapshot
      | some dump => some ⟨dump, f.generation⟩ }

/-- The top of `_bring_up`'s loop, down to its first await. -/
def bringUpLoop (w : BringUpTask) (f : Flight κ) : Flight κ :=
  if f.state = .stopping then f.endBringUp w
  else if cfg.maxRestartAttempts ≤ f.restartAttempts then
    let last := match f.lastLoss with
      | none => "unknown"
      | some loss => loss.reason
    endBringUp w (setReady
      { f with
        degradedReason :=
          some s!"{f.restartAttempts} consecutive bring-up attempts failed; last: {last}"
        state := .degraded })
  else
    let delay := cfg.delay f.restartAttempts
    let f' := { f with restartAttempts := f.restartAttempts + 1 }
    if delay = 0 then (f'.submit (.reap w)).setTask w (.reaping none false)
    else f'.setTask w .backoff

/-- A `CoordinatorLost` inside the loop: note it and go round again. -/
def retry (w : BringUpTask) (reason : String) (provokedBy : Option String) (f : Flight κ) :
    After κ :=
  (bringUpLoop cfg w (f.noteLoss reason provokedBy), { loss := some (f.lossOf reason provokedBy) })

/-- The end of `_bring_up`: READY. -/
def readyUp (w : BringUpTask) (f : Flight κ) : Flight κ :=
  endBringUp w (setReady { f with lossProvokedBy := none, state := .ready })

/-- The old child is gone: spawn a new one and await its hello.  The pipe and the process are taken
to be created: a machine that has no room for either makes `_spawn` raise, and the bring-up task
with it, which no action of the model stands for. -/
def spawnChild (w : BringUpTask) (f : Flight κ) : Flight κ :=
  let k := f.spawns
  let f' := f.setChild k (.born prog)
  { (f'.submit (.awaitReply (.task w) k true)).setTask w (.hello k none) with
    child := some k
    spawns := f.spawns + 1
    inFlight := f.inFlight + 1 }

/-- `_reprime`, down to its await if it replays anything. -/
def reprime (w : BringUpTask) (f : Flight κ) : Flight κ :=
  match f.primedArgs with
  | none => readyUp w f
  | some args =>
      if f.lossProvokedBy = some "prepare" then readyUp w f
      else
        match f.child with
        | none => readyUp w { f with reprimeError := some "no coordinator process" }
        | some k =>
            (startExchange (.task w) k (.prepare args) { f with reprimeError := none }).setTask w
              (.repriming k f.nextTag args none)

/-- What the child said first, or that it said nothing. -/
def afterHello (w : BringUpTask) (out : Outcome) (f : Flight κ) : After κ :=
  let f := { f with inFlight := f.inFlight - 1 }
  match out with
  | .lost reason => retry cfg w reason f.lossProvokedBy f
  | .reply s =>
      match s.msg with
      | .fatal reason =>
          (({ f with
              fatalReason := some reason
              degradedReason := some reason
              state := .degraded }.submit (.reap w)).setTask w (.reaping (some reason) false), {})
      | .hello =>
          (reprime w { f with generation := f.generation + 1, restartAttempts := 0 }, {})
      -- The source ends the reason with `, got` and the message: a dictionary, of which a `Msg`
      -- holds what is read of it and not the rest that `repr` would show.
      | _ => retry cfg w "expected hello" f.lossProvokedBy f

/-- What became of the replayed prepare. -/
def afterReprime (w : BringUpTask) (args : PrepareCommand) (out : Outcome) (f : Flight κ) :
    After κ :=
  let f := { f with inFlight := f.inFlight - 1 }
  match out with
  | .lost reason => retry cfg w reason (some "prepare") f
  | .reply s =>
      let f := f.handOver s
      if s.msg.ok then (readyUp w (f.notePrepared args s.msg), {})
      else
        (readyUp w
          { f with
            primedArgs := none
            reprimeError := some (s.msg.errorOr "prepare replay failed") }, {})

/-- A bring-up task runs from where it is suspended to its next await. -/
def resumeBringUp (w : BringUpTask) (f : Flight κ) : Option (After κ) :=
  match f.tasks w with
  | .absent => none
  | .scheduled =>
      match w with
      | .startup => some (bringUpLoop cfg .startup f, {})
      | .restart =>
          -- The loop runs tasks in the order they were made ready.
          if f.tasks .startup = .scheduled then none
          else if f.lock.uncontended then
            some (bringUpLoop cfg .restart { f with lock := f.lock.hold .restart }, {})
          else some ({ f.setTask .restart .queued with lock := f.lock.enqueue .restart }, {})
  | .queued => none
  | .backoff => some ((f.submit (.reap w)).setTask w (.reaping none false), {})
  | .reaping none true => some (spawnChild prog w f, {})
  | .reaping (some _) true => some (endBringUp w (setReady f), {})
  | .hello _ (some out) => some (afterHello cfg w out f)
  | .repriming _ _ args (some out) => some (afterReprime cfg w args out f)
  | _ => none

/-! ### Sending a command

`send_command` takes `_lock`, waits for the flight to come up if it has not, and hands its command
to the thread.  Everything it does from a state in which the lock is its own is one segment up to
the await on the thread, so no other caller comes in between.
-/

/-- `send_command` ends, and its caller lets go of `_lock`. -/
def endCall (c : CallId) (result : Result) (loss : Option Loss) (f : Flight κ) : After κ :=
  ({ f with lock := f.lock.release }, { loss := loss, finished := some (c, result) })

/-- `str | None or default`. -/
def orElse (text : Option String) (default : String) : String :=
  match text with
  | none => default
  | some t => if t = "" then default else t

/-- The refusal `_ensure_usable` raises. -/
def refusal (f : Flight κ) : Result :=
  if f.state = .degraded then .unavailable (orElse f.degradedReason "coordinator degraded") true
  else .unavailable s!"coordinator {f.state.value}" true

/-- `_exchange`, down to its await. -/
def exchange (c : CallId) (command : Command) (f : Flight κ) : After κ :=
  match f.child with
  | none => f.endCall c (.unavailable "no coordinator process" false) none
  | some k =>
      ({ startExchange (.call c) k command f with
          lock := f.lock.hold (.call c command (.exchanging k f.nextTag none)) }, {})

/-- `send_command` once it holds `_lock`. -/
def underLock (c : CallId) (command : Command) (f : Flight κ) : After κ :=
  if f.state = .ready then f.exchange c command
  else if f.state = .starting then
    ({ f with lock := f.lock.hold (.call c command (.waiting f.readyEvent)) }, {})
  else f.endCall c f.refusal none

/-- `send_command` is called. -/
def call (c : CallId) (command : Command) (f : Flight κ) : After κ :=
  if f.lock.uncontended then f.underLock c command
  else ({ f with lock := f.lock.enqueue (.call c command) }, {})

/-- The waiter whose turn it is takes `_lock`. -/
def takeLock (f : Flight κ) : Option (After κ) :=
  match f.lock.next? with
  | none => none
  | some (.call c command, lock) => some (({ f with lock := lock }).underLock c command)
  | some (.restart, lock) =>
      some (bringUpLoop cfg .restart { f with lock := lock.hold .restart }, {})

/-- What the reader thread came back with for a caller. -/
def afterExchange (c : CallId) (command : Command) (out : Outcome) (f : Flight κ) : After κ :=
  let f := { f with inFlight := f.inFlight - 1 }
  match out with
  | .lost reason =>
      (startRestart (f.noteLoss reason (some command.cmd))).endCall c (.lost reason)
        (some (f.lossOf reason (some command.cmd)))
  | .reply s =>
      let f := f.handOver s
      match command with
      | .prepare args =>
          (if s.msg.ok then f.notePrepared args s.msg else f).endCall c (.response s) none
      | _ => f.endCall c (.response s) none

/-- The caller that holds `_lock` runs to its next await. -/
def resumeCaller (f : Flight κ) : Option (After κ) :=
  match f.lock.owner with
  | some (.call c command (.waiting true)) =>
      if f.state = .ready then some (f.exchange c command) else some (f.endCall c f.refusal none)
  | some (.call c command (.exchanging _ _ (some out))) => some (f.afterExchange c command out)
  | _ => none

/-- `STARTUP_WAIT_S` passes. -/
def startupTimeout (f : Flight κ) : Option (After κ) :=
  match f.lock.owner with
  | some (.call c _ (.waiting _)) =>
      some (f.endCall c (.unavailable "coordinator still starting" true) none)
  | _ => none

/-! ### The reader thread

The thread runs beside the event loop, and the two meet only where a result is delivered.  Its jobs
are cut where something outside can come in between: a reap takes the child out of `_proc` before
it waits for the process to end, and an exchange writes its command before it waits for the answer.
-/

/-- The thread's result reaches the task that awaits it, which is the one that handed the job over:
the future belongs to the job, so that a result reaches nobody else, and where its task is gone it
reaches nobody. -/
def deliver (o : Client) (out : Outcome) (f : Flight κ) : Flight κ :=
  match o with
  | .task w =>
      match f.tasks w with
      | .hello k none => f.setTask w (.hello k (some out))
      | .repriming k tag args none => f.setTask w (.repriming k tag args (some out))
      | _ => f
  | .call c =>
      match f.lock.owner with
      | some (.call c' command (.exchanging k tag none)) =>
          if c' = c then
            { f with lock := f.lock.hold (.call c command (.exchanging k tag (some out))) }
          else f
      | _ => f

/-- `_reap` is over. -/
def deliverReaped (w : BringUpTask) (f : Flight κ) : Flight κ :=
  match f.tasks w with
  | .reaping fatal false => f.setTask w (.reaping fatal true)
  | _ => f

/-- What the thread can do next.  `fails` picks the exception where both it and a success are
possible: a child that is gone may have answered before, and the thread may find its end or its
answer first. -/
def runExecutor (fails : Option String) (f : Flight κ) : Option (Flight κ) :=
  match f.executor with
  | [] => none
  | .reap w :: rest =>
      some { f with executor := .reaping w f.child :: rest, child := none }
  | .reaping w taken :: rest =>
      let f' := match taken with
        | none => f
        | some k => f.setChild k { f.children k with alive := false, reaped := true }
      some (deliverReaped w { f' with executor := rest })
  | .exchange o k tag command :: rest =>
      let c := f.children k
      match fails with
      | some reason =>
          if c.alive then none else some (deliver o (.lost reason) { f with executor := rest })
      | none =>
          some { f.setChild k { c with inbox := c.inbox ++ [(tag, command)] } with
            executor := .awaitReply o k false :: rest
            written := update f.written tag (some (o, k, command)) }
  | .awaitReply o k timed :: rest =>
      let c := f.children k
      match fails with
      | some reason =>
          if c.alive ∧ ¬ timed then none
          else some (deliver o (.lost reason) { f with executor := rest })
      | none =>
          match c.outbox with
          | [] => none
          | s :: more =>
              some (deliver o (.reply s) { f.setChild k { c with outbox := more } with
                executor := rest })

/-! ### Children

A child does what its loop says, one message at a time; it can also die at any moment, and for any
reason, which is the only thing the front-end has to be prepared for at every step.
-/

/-- The phase a child is in once it has answered. -/
def phaseAfter : Command → Phase
  | .push .. => .deferred
  | .ingest .. => .deferred
  | .shutdown => .exiting
  | _ => .idle

/-- A child sends its first message. -/
def boot (k : ChildId) (b : Boot) (f : Flight κ) : Option (Flight κ) :=
  let c := f.children k
  if c.alive ∧ c.phase = .booting then
    match b with
    | .hello =>
        some (f.setChild k { c with phase := .idle, outbox := c.outbox ++ [⟨.hello, k, none⟩] })
    | .fatal error =>
        some (f.setChild k
          { c with phase := .exiting, outbox := c.outbox ++ [⟨.fatal error, k, none⟩] })
  else none

/-- A child in `recv` takes the next command. -/
def receive (k : ChildId) (f : Flight κ) : Option (Flight κ) :=
  let c := f.children k
  match c.phase, c.inbox with
  | .idle, (tag, command) :: rest =>
      if c.alive then some (f.setChild k { c with phase := .busy tag command, inbox := rest })
      else none
  | _, _ => none

/-- A child answers the command it is on. -/
def answer (k : ChildId) (world : σ) (f : Flight κ) : Option (Flight κ) :=
  let c := f.children k
  match c.phase with
  | .busy tag command =>
      if c.alive then
        let r := prog.run world command c.mem
        some (f.setChild k
          { c with
            phase := phaseAfter command
            outbox := c.outbox ++ [⟨r.1, k, some (tag, command)⟩]
            mem := r.2 })
      else none
  | _ => none

/-- A child is done with what it put off. -/
def finishDeferred (k : ChildId) (f : Flight κ) : Option (Flight κ) :=
  let c := f.children k
  if c.alive ∧ c.phase = .deferred then some (f.setChild k { c with phase := .idle }) else none

/-- A child dies, of whatever cause. -/
def die (k : ChildId) (f : Flight κ) : Option (Flight κ) :=
  if (f.children k).alive then some (f.setChild k { f.children k with alive := false }) else none

end Flight

/-! ### The whole flight

Nothing schedules the tasks of a flight here: `Flight.next` answers for every task whether it can
go on, and a run is any sequence of such steps.  What is proved of every run is therefore proved of
every order in which the event loop, the thread and the children may take their turns.
-/

/-- What can happen next on a flight. -/
inductive FlightAction (σ : Type)
  | call (c : CallId) (command : Command)
  | takeLock
  | resumeCaller
  | startupTimeout
  | resumeBringUp (w : BringUpTask)
  | requestRestart (reason : String)
  | runExecutor (fails : Option String)
  | boot (k : ChildId) (b : Boot)
  | receive (k : ChildId)
  | answer (k : ChildId) (world : σ)
  | finishDeferred (k : ChildId)
  | die (k : ChildId)

/-- Only the front-end's own segments are seen by the rest of the server. -/
def Flight.quietly (f : Option (Flight κ)) : Option (Flight.After κ) := f.map fun f => (f, {})

/-- **One step of a flight.** An action that cannot be taken in the state it comes in gives
nothing, so that a list of actions is a run only if every one of them was possible in its turn. -/
def Flight.next (cfg : CoordSettings) (prog : ChildProgram κ σ) (f : Flight κ) :
    FlightAction σ → Option (Flight.After κ)
  | .call c command => some (f.call c command)
  | .takeLock => f.takeLock cfg
  | .resumeCaller => f.resumeCaller
  | .startupTimeout => f.startupTimeout
  | .resumeBringUp w => f.resumeBringUp cfg prog w
  | .requestRestart reason => some (f.requestRestart reason)
  | .runExecutor fails => quietly (f.runExecutor fails)
  | .boot k b => quietly (f.boot k b)
  | .receive k => quietly (f.receive k)
  | .answer k world => quietly (f.answer prog k world)
  | .finishDeferred k => quietly (f.finishDeferred k)
  | .die k => quietly (f.die k)

/-- The runs of one flight. -/
def flightSystem (cfg : CoordSettings) (prog : ChildProgram κ σ) :
    System (Flight κ) (FlightAction σ) where
  init f := f = Flight.started prog
  step f a f' := ∃ e, f.next cfg prog a = some (f', e)

/-- The steps in turn, for runs that are followed on fixed inputs. -/
def Flight.follow (cfg : CoordSettings) (prog : ChildProgram κ σ) :
    List (FlightAction σ) → Flight κ → Option (Flight κ) :=
  System.follow fun f a => (f.next cfg prog a).map Prod.fst

theorem Flight.follow_reach {cfg : CoordSettings} {prog : ChildProgram κ σ}
    {l : List (FlightAction σ)} {f : Flight κ}
    (h : Flight.follow cfg prog l (Flight.started prog) = some f) :
    (flightSystem cfg prog).Reach System.always f := by
  refine System.Reach.follow ?_ l (.init rfl) h
  intro f a f' hstep
  obtain ⟨⟨g, e⟩, hg, rfl⟩ := Option.map_eq_some_iff.mp hstep
  exact ⟨⟨e, hg⟩, trivial⟩

end DonutServer
