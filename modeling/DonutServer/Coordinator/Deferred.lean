/-
The tables a job leaves to be written once its reply is out.

A run that completes hands its tables over in `_DEFERRED`, and the loop writes them after
the reply.  This is the command loop again with what the plain one leaves out: the tables
themselves, the three entries of `_DEFERRED` and the files.  `Seen` is what an onlooker
notes of it, in order: what passes over the pipe, what `_DEFERRED` holds whenever the loop
comes to wait, each run that completes and each file put in place.

The two loops agree on what is sent and on every global but `_DEFERRED`, which is shown where the
tables are: this one is what the plain loop becomes once its process has somewhere to put them.
-/
import DonutServer.Coordinator.Loop
import DonutServer.Lib.Lockstep
import DonutServer.StampFiles

namespace DonutServer

open Effect

/-- What `run_job` reads back of a run: the result table, and the selection tables by the
name of their output, or none of them where no plot flight would read them. -/
structure Tables (T : Type) where
  table : T
  selection : OrderedDict String T
  deriving DecidableEq

/-- `_DEFERRED` -/
structure Deferred (T : Type) where
  jobId : Option JobId
  table : Option T
  selection : Option (OrderedDict String T)
  deriving DecidableEq

/-- `_DEFERRED` when nothing waits to be written. -/
def Deferred.empty {T : Type} : Deferred T := ⟨none, none, none⟩

/-- What `run_job` puts there. -/
def Deferred.handed {T : Type} (jobId : JobId) (tables : Tables T) : Deferred T :=
  ⟨some jobId, some tables.table, some tables.selection⟩

/-- What an onlooker notes. -/
inductive Seen (T : Type)
  | pipe (event : PipeEvent)
  /-- The loop comes to `conn.recv`. -/
  | waits (deferred : Deferred T)
  /-- `run_job` has come to its end. -/
  | completed (jobId : JobId) (tables : Tables T)
  /-- `os.replace` has put a table in place. -/
  | wrote (path : String) (table : T)
  deriving DecidableEq

/-- A command that arrives, what is outside then, and what a run that completes leaves. -/
structure Arrival (S : Stack) (T : Type) where
  command : Command
  world : World S
  tables : S.Task → QuantumBundle S → Option Int → Tables T

/-- A process, what a run of its would leave, `_DEFERRED`, and what has been seen so far. -/
structure Desk (S : Stack) (T : Type) where
  process : Process S
  tables : S.Task → QuantumBundle S → Option Int → Tables T
  deferred : Deferred T
  seen : List (Seen T)

/-- Code of the process, files included. -/
abbrev Work (S : Stack) (T : Type) := Effect (Desk S T) Exn

variable {S : Stack} {T : Type} (env : Env S)

namespace Desk

/-- A process just started. -/
def started (world : World S) (tables : S.Task → QuantumBundle S → Option Int → Tables T) :
    Desk S T :=
  ⟨⟨.fresh, world⟩, tables, .empty, []⟩

/-- Code that touches neither the pipe nor the tables. -/
def within {α : Type} (m : Code S α) : Work S T α :=
  ExceptT.mk fun d =>
    let r := m.outcome d.process
    (r.1, { d with process := r.2 })

/-- Code that uses the pipe. -/
def onPipe {α : Type} (m : Loop S α) : Work S T α :=
  ExceptT.mk fun d =>
    let r := m.outcome ⟨d.process, []⟩
    (r.1, { d with process := r.2.process, seen := d.seen ++ r.2.events.map Seen.pipe })

/-- An onlooker notes something. -/
def note (e : Seen T) : Work S T Unit := modify fun d => { d with seen := d.seen ++ [e] }

/-! ### Jobs

A job fills `_DEFERRED` in the last lines of its run, once its tables have been read back.  A job
that raises before that leaves `_DEFERRED` as it found it, which is empty: the loop has emptied it
since the last job.
-/

/-- `run_job`: the tables are read back before anything is handed over, so a run that comes
this far leaves them. -/
def runJob (jobId : JobId) (exposures : Exposures S) (numWorkers : Option Int) :
    Work S T JobOutput := do
  let (task, bundle) ← within (beforeQuantum env exposures)
  let d ← get
  let result ← within (external (d.process.world.quantum task bundle numWorkers))
  let tables := d.tables task bundle numWorkers
  modify fun d =>
    { d with
      process := { d.process with deferred := some jobId }
      deferred := .handed jobId tables
      seen := d.seen ++ [.completed jobId tables] }
  pure result

/-- `run_push` -/
def runPush (jobId : JobId) (layout : List PartLayout) (numWorkers : Option Int) :
    Work S T JobOutput := do
  let exposures ← within (reconstructExposures env layout)
  runJob env jobId exposures numWorkers

/-- `run_ingest` -/
def runIngest (jobId : JobId) (directory : String) (numWorkers : Option Int) :
    Work S T JobOutput := do
  let d ← get
  let exposures ← within (external (d.process.world.raws directory numWorkers))
  let result ← runJob env jobId exposures numWorkers
  within fault
  pure result

/-- The `try` of a command's arm, up to the message it sends. -/
def body : Command → Work S T Msg
  | .push jobId layout numWorkers key => do
      within (activateFor env key)
      let result ← runPush env jobId layout numWorkers
      pure (.ran result)
  | .ingest jobId directory numWorkers key => do
      within (activateFor env key)
      let result ← runIngest env jobId directory numWorkers
      pure (.ran result)
  | command => within (DonutServer.body env command)

/-! ### The work put off

The reply has gone out by now, and the front-end counts the child free, so nothing that fails here
may have any effect but a line in the log.  The popping comes first for that reason: whatever fails
later, the next job finds `_DEFERRED` empty.
-/

/-- One `try` of `_run_deferred`: a table under a name in the stamp directory.  Up to the
replacement a failure leaves no such file, and what fails after it is swallowed too. -/
def writeTable (name : String) (table : T) : Work S T Unit :=
  tryCatch (do
      let directory ← within (evaluate (stampDir env))
      within fault
      note (.wrote (PyText.joinPath directory name) table)
      within fault)
    fun _ => pure ()

/-- The loop of `_run_deferred` over `PLOT_TABLES`. -/
def writeSelections (jobId : JobId) (selection : OrderedDict String T) :
    List (String × String) → Work S T Unit
  | [] => pure ()
  | (name, kind) :: rest => do
      match selection.get? name with
      | none => pure ()
      | some subtable => writeTable env (selectionName jobId kind) subtable
      writeSelections jobId selection rest

/-- `_run_deferred`.  Everything is popped before anything can fail; collecting the last
job's cycles is outside any `try`. -/
def runDeferred : Work S T Unit := do
  let d ← get
  modify fun d => { d with process := { d.process with deferred := none }, deferred := .empty }
  within fault
  match d.deferred.table with
  | none => pure ()
  | some table => do
      let jobId := d.deferred.jobId.getD "None"
      writeTable env (stampName jobId) table
      writeSelections env jobId (d.deferred.selection.getD .empty) plotTables
      modify fun d => { d with deferred := .empty }

/-! ### The loop

One round of the loop is an arrival, an answer and the work put off.  What an onlooker notes of it
grows at the end only, so that what has been seen by some moment is a prefix of what is seen in
all.
-/

/-- The arm of a command that is tried. -/
def respond (command : Command) : Work S T Unit :=
  tryCatch (do
      let msg ← body env command
      onPipe (send msg))
    fun exc => onPipe (send (failure command exc))

/-- What follows the reply to a job. -/
def afterReply (command : Command) : Work S T Unit :=
  if defers command then runDeferred env else pure ()

/-- Waiting for the next command. -/
def await : Work S T Unit := do
  let d ← get
  note (.waits d.deferred)

/-- Taking it in. -/
def receive (a : Arrival S T) : Work S T Unit := do
  onPipe (receiveCommand a.command a.world)
  modify fun d => { d with tables := a.tables }

/-- The loop, over the commands that arrive before the pipe is closed. -/
def serve : List (Arrival S T) → Work S T Unit
  | [] => await
  | a :: rest => do
      await
      receive a
      match a.command with
      | .shutdown => onPipe (send .ack)
      | .other cmd => do
          onPipe (send (.failed s!"unknown cmd {PyText.reprText cmd}" none))
          serve rest
      | command => do
          respond env command
          afterReply env command
          serve rest

/-- `coordinator_main` -/
def coordinatorMain (incoming : List (Arrival S T)) : Work S T Unit := do
  within fault
  if ← onPipe (checkedCalibConfig env) then
    within fault
    onPipe (send .hello)
    within fault
    serve env incoming

end Desk

end DonutServer
