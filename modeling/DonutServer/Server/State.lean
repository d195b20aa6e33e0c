/-
The server over its flights: jobs, requests, and what each request is waiting for.

A request is a task of its own, kept as the await it is suspended at, like the tasks
of a flight.  Its number is also the number of its calls of `send_command`: it makes
one after the other, so at any time the number names one.

What a task does between two awaits is cut where it calls something that may come
back at once.  `running` is the rest of the task that is being run; until that has
reached its next await nobody else runs.
-/
import Mathlib.Data.List.MinMax
import DonutServer.Flight.Step
import DonutServer.PlotQueue

namespace DonutServer

/-! ### Jobs

A job's record is what `JOBS` has of it.  A record is never taken out, so that a job which is there
at one time is there at every later one.
-/

inductive JobState
  | prepared
  | receiving
  | computing
  | done
  | error
  deriving DecidableEq, Repr

/-- `state.value`. -/
def JobState.value : JobState → String
  | .prepared => "PREPARED"
  | .receiving => "RECEIVING"
  | .computing => "COMPUTING"
  | .done => "DONE"
  | .error => "ERROR"

/-- A job, its times and timings of a run apart. -/
structure JobRecord where
  state : JobState
  result : Option Bytes := none
  error : Option String := none
  prepareTimings : Option PrepareTimings := none
  tableParquet : Option Bytes := none
  preparedKey : Option PrepareKey := none
  deriving DecidableEq

/-! ### Requests

A request is told apart by a number that it gets when it comes in.  What it remembers of its
arguments is with the await it is suspended at: a stage that does not need one any more does not
have it.
-/

/-- Flights are numbered from 0, and there is at least one. -/
abbrev FlightId (n : Nat) := Fin (n + 1)

structure PushRequest where
  jobId : JobId
  body : Bytes
  numWorkers : Option Int

structure IngestRequest where
  jobId : JobId
  directory : Option String
  numWorkers : Option Int

structure SubmitRequest where
  directory : Option String
  numWorkers : Option Int
  configOverrides : List Override
  anyImgtype : Bool
  resubmit : Bool
  dryRun : Bool

/-- A submit that knows what its directory holds. -/
structure Submission where
  request : SubmitRequest
  directory : String
  found : Exposure

/-- How a request is answered. -/
inductive Reply (n : Nat)
  | prepared (jobId : JobId) (timings : Option PrepareTimings) (generation : Nat)
      (flight : FlightId n)
  | ran (jobId : JobId) (generation : Nat) (flight : FlightId n)
  | submitted (jobId : JobId) (generation : Nat) (flight : FlightId n) (exposure : Exposure)
      (timings : Option PrepareTimings) (note : Option String)
  | dryRun (exposure : Option Exposure)
  | skipped (reason : String) (exposure : Exposure)
  | plotting (queued : Bool)
  | httpException (status : Nat) (detail : String)
  | wrongState (state : JobState)
  | coordinatorError (reason : String) (retryAfter : Nat) (error : String) (state : CoordState)
      (generation : Nat) (flight : Option (FlightId n))
  | internalError
  | clientDisconnect

/-- How far a request got: turned down before its first await, waiting for the answer
to a command, for `push_lock` or for more of the body, or on its way to the next of
these.  A submit goes through the stages of a prepare and an ingest. -/
inductive Progress (n : Nat)
  | refused
  | resolving (i : FlightId n) (request : SubmitRequest) (directory : String)
  | resolved (submission : Submission)
  | preparing (i : FlightId n) (jobId : JobId) (command : PrepareCommand)
      (submission : Option Submission)
  | submitted (jobId : JobId) (timings : Option PrepareTimings) (submission : Submission)
  | ingesting (i : FlightId n) (jobId : JobId) (directory : String) (numWorkers : Option Int)
      (key : Option PrepareKey) (submission : Option (Option PrepareTimings × Submission))
  | queued (i : FlightId n) (request : PushRequest)
  | header (i : FlightId n) (request : PushRequest) (received : Nat)
  | body (i : FlightId n) (request : PushRequest) (received : Nat)
  | dispatched (i : FlightId n) (request : PushRequest) (layout : List PartLayout)
      (key : Option PrepareKey)

/-- A request's task: where it is, or where it ended and how. -/
structure Handler (n : Nat) where
  progress : Progress n
  reply : Option (Reply n)

/-- What a task goes on with: what its call came to, the header of its body, the whole
body, or the next stage of a submit. -/
inductive Resumption
  | result (r : Result)
  | headerRead (last : Bool)
  | bodyRead
  | goOn

/-! ### The server

The tables of the source are functions from their keys, empty where there is no entry.  Only the
event loop writes them, one task at a time, so the server needs no locks of its own beside those
the source has.
-/

/-- `pool`, `JOBS`, `SUBMITTED` and `plot_pool`, with the push lock and the shared block of each
flight, and the requests that have come in.  A request that was answered stays in `handlers`, with
its reply, so that its number is never given to another. -/
structure Server (κ : Type) (n : Nat) where
  flights : FlightId n → Flight κ
  byJob : JobId → Option (FlightId n)
  lastUsed : FlightId n → Nat
  clock : Nat
  jobs : JobId → Option JobRecord
  submitted : Int → Option JobId
  pushLocks : FlightId n → FifoLock CallId CallId
  blocks : FlightId n → Bytes
  plots : PlotQueue
  handlers : CallId → Option (Handler n)
  running : Option (CallId × Resumption)

end DonutServer
