/-
The jobs whose plots are to be drawn.

The queue as a data structure: what a request does to it, and what a drain loop does
between two awaits.  Nothing in it reads or writes a job's record.

Three of its structures go together: the stack, in which the newest job is on top; the set, which
says what is in the stack; and the table of what each loop draws.  They are changed one after the
other, with no await in between, so that no other task sees them disagree.
-/
import DonutServer.Commands
import DonutServer.Lib.Event
import DonutServer.Lib.OrderedDict

namespace DonutServer

open Function

/-- `PLOT_MAX_RETRIES`. -/
def plotMaxRetries : Nat := 6

/-- `PLOT_ERROR_CAP`. -/
def plotErrorCap : Nat := 256

/-- `PlotQueue`: how many plot flights there are, the stack with its top first, the set
beside it, what each flight draws, the event the loops wait for, the jobs that could not be
drawn, and how often each was put back. -/
structure PlotQueue where
  flights : Nat
  stack : List JobId
  queued : Finset JobId
  drawing : Nat → Option JobId
  wake : Event Nat
  errors : OrderedDict JobId String
  retries : JobId → Nat

namespace PlotQueue

/-- The queue of `flights` plot flights, before any job. -/
def started (flights : Nat) : PlotQueue :=
  ⟨flights, [], ∅, fun _ => none, .new, .empty, fun _ => 0⟩

/-- Some flight draws the job. -/
def isDrawing (q : PlotQueue) (jobId : JobId) : Bool :=
  (List.range q.flights).any fun i => q.drawing i = some jobId

/-- `state_of`. -/
def stateOf (jobId : JobId) (q : PlotQueue) : Option String :=
  if q.isDrawing jobId then some "drawing" else if jobId ∈ q.queued then some "queued" else none

/-- `enqueue`, and whether the job was queued. -/
def enqueue (jobId : JobId) (q : PlotQueue) : PlotQueue × Bool :=
  if q.flights = 0 then (q, false)
  else if jobId ∈ q.queued ∨ q.isDrawing jobId then (q, false)
  else
    ({ q with
        queued := insert jobId q.queued
        stack := jobId :: q.stack
        errors := q.errors.pop jobId
        wake := q.wake.set }, true)

/-- The newest entry of the stack that is still in the set, and the entries under it. -/
def takeFrom (queued : Finset JobId) : List JobId → Option JobId × List JobId
  | [] => (none, [])
  | jobId :: rest => if jobId ∈ queued then (some jobId, rest) else takeFrom queued rest

/-- `_take`. -/
def take (q : PlotQueue) : Option JobId × PlotQueue :=
  match takeFrom q.queued q.stack with
  | (some jobId, rest) => (some jobId, { q with stack := rest, queued := q.queued.erase jobId })
  | (none, rest) => (none, { q with stack := rest })

/-- `_record_error`. -/
def recordError (jobId : JobId) (message : String) (q : PlotQueue) : PlotQueue :=
  { q with errors := ((q.errors.pop jobId).set jobId message).evict plotErrorCap }

/-- The job goes back on top of the stack. -/
def putBack (jobId : JobId) (q : PlotQueue) : PlotQueue :=
  { q with queued := insert jobId q.queued, stack := jobId :: q.stack }

/-- `_retries.pop(job_id, None)`. -/
def forgetRetries (jobId : JobId) (q : PlotQueue) : PlotQueue :=
  { q with retries := update q.retries jobId 0 }

/-- `_JOB_ID_OK`. -/
def jobIdOk (jobId : JobId) : Bool :=
  let ok := fun c : Char => c.isAlphanum || c = '_' || c = '-'
  1 ≤ jobId.length && jobId.length ≤ 64 && jobId.toList.all ok

end PlotQueue

end DonutServer
