/-
What a request does between two awaits, and what a loss does to the jobs.

The handlers are in the order of the source: prepare, submit, ingest, push.  A body
comes in as the chunks of its stream, of any sizes; a client may go away wherever its
body is awaited.  No task is cancelled.  Invalid bodies of a prepare or a submit that
never get as far as a command are left out where they are checked by shape alone.
-/
import DonutServer.Server.State

namespace DonutServer

open Function

variable {κ σ : Type} {n : Nat}

/-- `MAX_PUSH_BYTES`. -/
def maxPushBytes : Nat := 512 * 1024 * 1024

/-- `num_workers is not None and num_workers < 1`. -/
def badWorkers : Option Int → Bool
  | none => false
  | some w => w < 1

/-- `_required_str`. -/
def requiredStr (field : String) : Option String → Except (Reply n) String
  | none => .error (.httpException 400 s!"{field} is required and must be a non-empty string")
  | some text =>
      if PyText.isBlank text then
        .error (.httpException 400 s!"{field} is required and must be a non-empty string")
      else .ok text

/-- A directory that is there and absolute. -/
def absoluteDirectory (directory : Option String) : Except (Reply n) String :=
  match requiredStr "directory" directory with
  | .error reply => .error reply
  | .ok path =>
      if path.toList.head? = some '/' then .ok path
      else .error (.httpException 400 "directory must be an absolute path")

/-- `resp.get("error")`. -/
def Msg.error : Msg → Option String
  | .fatal error => some error
  | .failed error _ => some error
  | _ => none

/-- `resp.get("kind")`. -/
def Msg.kind : Msg → Option ErrorKind
  | .failed _ kind => kind
  | _ => none

/-- `resp.get("timings")`. -/
def Msg.prepareTimings : Msg → Option PrepareTimings
  | .prepared timings _ _ => some timings
  | _ => none

/-- `resp.get("prepared_key")`. -/
def Msg.preparedKey : Msg → Option PrepareKey
  | .prepared _ _ key => some key
  | _ => none

/-- `resp.get("result") or {}` of a run: the report, and the table taken out of it. -/
def Msg.runResult : Msg → Bytes × Option Bytes
  | .ran result => (result.report, some result.tableParquet)
  | _ => ([], none)

/-! ### What becomes of a job

A record is written from what a command came to, and in four ways: by the prepare that makes it, by
the loss handler, and by the handler of a push or an ingest, before its command and after it.  The
last two may both come to the same record, in which case the later one has the last word; what it
may say then is part of the claims.
-/

/-- A record as its run has ended: lost with its child, refused, or done. -/
def JobRecord.concluded (result : Result) (record : JobRecord) : JobRecord :=
  match result with
  | .lost reason => { record with state := .error, error := some reason }
  | .unavailable reason _ => { record with state := .error, error := some reason }
  | .response s =>
      if s.msg.ok then
        { record with
          state := .done
          tableParquet := s.msg.runResult.2
          result := some s.msg.runResult.1 }
      else { record with state := .error, error := s.msg.error }

/-- A record in the hands of a flight that lost its child. -/
def JobRecord.failed (reason : String) (record : JobRecord) : JobRecord :=
  if record.state = .receiving ∨ record.state = .computing then
    { record with
      state := .error
      error := some s!"coordinator lost during {record.state.value}: {reason}" }
  else record

/-- A prepare's record: `PREPARED` with its key, or `ERROR`. -/
def JobRecord.ofPrepare (reply : Msg) : JobRecord :=
  if reply.ok then
    { state := .prepared, prepareTimings := reply.prepareTimings, preparedKey := reply.preparedKey }
  else { state := .error, error := reply.error }

/-! ### What a submit decides

A submit is a prepare and an ingest behind two checks.  The image type is looked at first; the
visit is looked up only if the submit did not say that it is to be done again, and is noted down
only once the prepare has come back.
-/

/-- `SKIP_IMGTYPES`. -/
def skipImgtypes : List String := ["DARK", "BIAS", "FLAT"]

/-- `EXPECTED_IMGTYPES`. -/
def expectedImgtypes : List String := ["CWFS", "ACQ", "SCIENCE", "OBJECT"]

namespace Submission

/-- The image type, in capitals.  A FITS header holds ASCII. -/
def imgtype (sub : Submission) : String := sub.found.imgtype.toUpper

/-- The image type is one to run, or is to be run anyway. -/
def imgtypeAccepted (sub : Submission) : Bool :=
  sub.request.anyImgtype || !(skipImgtypes.contains sub.imgtype)

/-- What the reply says of an image type it did not expect. -/
def note (sub : Submission) : Option String :=
  if expectedImgtypes.contains sub.imgtype then none
  else
    some (s!"IMGTYPE {sub.imgtype} is not one of " ++
      PyText.reprList ["ACQ", "CWFS", "OBJECT", "SCIENCE"] ++
      ", so treat its Zernikes with suspicion")

/-- The visit the duplicate guard looks up, if it does. -/
def guardedVisit (sub : Submission) : Option Int :=
  if sub.request.resubmit then none else sub.found.visit

/-- `SUBMITTED[visit] = job_id`, where there is a visit. -/
def record (sub : Submission) (jobId : JobId) (submitted : Int → Option JobId) :
    Int → Option JobId :=
  match sub.found.visit with
  | none => submitted
  | some visit => update submitted visit (some jobId)

/-- The prepare of a submit. -/
def command (sub : Submission) : PrepareCommand where
  physicalFilter := sub.found.physicalFilter
  boresightRa := sub.found.boresightRa
  boresightDec := sub.found.boresightDec
  calibTime := sub.found.calibTime
  configOverrides := sub.request.configOverrides

end Submission

namespace Server

/-! ### The pool

Which flight a command goes to is decided here and nowhere else: a prepare takes the flight that
suits it best, and everything later goes by the route that the prepare has left.
-/

/-- `_lru`: of the flights given, the first of those used longest ago. -/
def lru (coords : List (FlightId n)) (s : Server κ n) : FlightId n :=
  (coords.argmin s.lastUsed).getD 0

/-- `select`. -/
def select (command : Command) (s : Server κ n) : FlightId n :=
  let flights := List.finRange (n + 1)
  let ready := flights.filter fun i => (s.flights i).state = .ready
  match ready.find? fun i => (s.flights i).primedArgs.map Command.prepare = some command with
  | some i => i
  | none =>
      let idle := ready.filter fun i => !(s.flights i).busy
      s.lru (if idle = [] then flights else idle)

/-- `note_used`. -/
def noteUsed (i : FlightId n) (s : Server κ n) : Server κ n :=
  { s with lastUsed := update s.lastUsed i s.clock }

/-- `route`. -/
def route (jobId : JobId) (i : FlightId n) (s : Server κ n) : Server κ n :=
  noteUsed i { s with byJob := update s.byJob jobId (some i) }

/-- The flight `for_push` names. -/
def forPush (jobId : JobId) (s : Server κ n) : FlightId n :=
  (s.byJob jobId).getD (s.lru (List.finRange (n + 1)))

/-- `for_push`, which routes a job that has no route. -/
def routed (jobId : JobId) (s : Server κ n) : Server κ n :=
  { s with byJob := update s.byJob jobId (some (s.forPush jobId)) }

/-- `_fail_jobs`. -/
def failJobs (i : FlightId n) (loss : Loss) (s : Server κ n) : Server κ n :=
  { s with
    jobs := fun jobId =>
      if s.byJob jobId = some i then (s.jobs jobId).map (JobRecord.failed loss.reason)
      else s.jobs jobId }

/-- `on_restart`, where a flight lost its child. -/
def noteLoss (i : FlightId n) (loss : Option Loss) (s : Server κ n) : Server κ n :=
  match loss with
  | none => s
  | some loss => s.failJobs i loss

/-! ### Small updates

The handlers are written in terms of these, and what is proved of a handler is put together from
what each of these leaves alone.
-/

/-- The request is suspended, or goes on, at `progress`. -/
def suspend (c : CallId) (progress : Progress n) (s : Server κ n) : Server κ n :=
  { s with handlers := update s.handlers c (some ⟨progress, none⟩) }

/-- The request is answered. -/
def finish (c : CallId) (progress : Progress n) (reply : Reply n) (s : Server κ n) : Server κ n :=
  { s with handlers := update s.handlers c (some ⟨progress, some reply⟩) }

/-- The rest of the task runs before anything else does. -/
def goOn (c : CallId) (r : Resumption) (s : Server κ n) : Server κ n :=
  { s with running := some (c, r) }

/-- Write a job's record, which is there. -/
def writeJob (jobId : JobId) (g : JobRecord → JobRecord) (s : Server κ n) : Server κ n :=
  { s with jobs := update s.jobs jobId ((s.jobs jobId).map g) }

/-- `record.state = state`. -/
def setState (jobId : JobId) (state : JobState) (s : Server κ n) : Server κ n :=
  s.writeJob jobId fun record => { record with state := state }

/-- `JOBS[job_id] = record`. -/
def newJob (jobId : JobId) (record : JobRecord) (s : Server κ n) : Server κ n :=
  { s with jobs := update s.jobs jobId (some record) }

/-- `coord.send_command`, down to its first await. -/
def sendCommand (i : FlightId n) (c : CallId) (command : Command) (s : Server κ n) : Server κ n :=
  let r := (s.flights i).call c command
  { s with
    flights := update s.flights i r.1
    running := r.2.finished.map fun q => (q.1, .result q.2) }

/-- A push is answered, and lets go of `push_lock`. -/
def endPush (c : CallId) (i : FlightId n) (progress : Progress n) (reply : Reply n)
    (s : Server κ n) : Server κ n :=
  { s.finish c progress reply with pushLocks := update s.pushLocks i (s.pushLocks i).release }

/-- `FlightPool.state`: ready if any flight is, and else the worst there is. -/
def poolState (s : Server κ n) : CoordState :=
  let states := (List.finRange (n + 1)).map fun i => (s.flights i).state
  if .ready ∈ states then .ready
  else ([.degraded, .stopping, .restarting, .starting].find? (· ∈ states)).getD .starting

/-- `FlightPool.generation`, of a pool that has a flight. -/
def poolGeneration (s : Server κ n) : Nat :=
  ((List.finRange (n + 1)).map fun i => (s.flights i).generation).foldl max 0

/-- `_coordinator_error`.  It describes the flight that the exception names, and the pool
where it names none. -/
def coordinatorError (flight : Option (FlightId n)) (lost : Bool) (error : String)
    (s : Server κ n) : Reply n :=
  let state := (flight.map fun i => (s.flights i).state).getD s.poolState
  let generation := (flight.map fun i => (s.flights i).generation).getD s.poolGeneration
  if lost then .coordinatorError "coordinator_lost" 30 error state generation flight
  else if state = .degraded then
    .coordinatorError "coordinator_degraded" 3600 error state generation flight
  else .coordinatorError "coordinator_restarting" 15 error state generation flight

/-! ### Prepare

A prepare is sent before there is a record of its job.  The record is made from the answer, so that
a prepare whose child is lost leaves a route and no job.
-/

/-- The fields of a prepare that are checked and may be wrong. -/
def invalidPrepare (command : PrepareCommand) : Option (Reply n) :=
  match requiredStr "physical_filter" (some command.physicalFilter),
    requiredStr "calib_time" (some command.calibTime) with
  | .error reply, _ => some reply
  | .ok _, .error reply => some reply
  | .ok _, .ok _ => none

/-- `prepare`, down to its await. -/
def prepare (c : CallId) (command : PrepareCommand) (submission : Option Submission)
    (uuid : JobId) (s : Server κ n) : Option (Server κ n) :=
  match invalidPrepare command with
  | some reply => some (s.finish c ((submission.map Progress.resolved).getD .refused) reply)
  | none =>
      -- No id is ever drawn twice.
      if s.byJob uuid = none ∧ s.jobs uuid = none then
        let i := s.select (.prepare command)
        some (((s.route uuid i).suspend c (.preparing i uuid command submission)).sendCommand i c
          (.prepare command))
      else none

/-- `prepare` once its command has come back. -/
def afterPrepare (c : CallId) (i : FlightId n) (jobId : JobId) (command : PrepareCommand)
    (submission : Option Submission) (result : Result) (s : Server κ n) : Server κ n :=
  let progress := Progress.preparing i jobId command submission
  match result with
  | .lost reason => s.finish c progress (s.coordinatorError (some i) true reason)
  | .unavailable reason tagged =>
      s.finish c progress (s.coordinatorError (if tagged then some i else none) false reason)
  | .response r =>
      let s := s.newJob jobId (.ofPrepare r.msg)
      if r.msg.ok then
        match submission with
        | none =>
            s.finish c progress
              (.prepared jobId r.msg.prepareTimings (s.flights i).generation i)
        | some sub =>
            let s := { s with submitted := sub.record jobId s.submitted }
            (s.suspend c (.submitted jobId r.msg.prepareTimings sub)).goOn c .goOn
      else
        s.finish c progress
          (.httpException (if r.msg.kind = none then 500 else 400) (r.msg.errorOr "prepare failed"))

/-! ### Submit

A submit waits three times, for a resolve, a prepare and an ingest, and looks at the tables of the
server in between.  What it read before an await may be out of date behind it.
-/

/-- `submit`, down to its first await. -/
def submit (c : CallId) (request : SubmitRequest) (s : Server κ n) : Server κ n :=
  match absoluteDirectory request.directory with
  | .error reply => s.finish c .refused reply
  | .ok directory =>
      if badWorkers request.numWorkers then
        s.finish c .refused (.httpException 400 "num_workers must be >= 1")
      else
        let i := s.select (.other "resolve")
        (s.suspend c (.resolving i request directory)).sendCommand i c (.resolve directory)

/-- `submit` once it knows what the directory holds, down to its prepare. -/
def guardSubmit (c : CallId) (sub : Submission) (s : Server κ n) : Server κ n :=
  let progress := Progress.resolved sub
  if sub.request.dryRun then s.finish c progress (.dryRun (some sub.found))
  else if sub.imgtypeAccepted then
    match sub.guardedVisit.bind s.submitted, sub.guardedVisit with
    | some previous, some visit =>
        s.finish c progress
          (.httpException 409 (s!"visit {visit} was already submitted as job {previous}; " ++
            "pass resubmit=true to run it again"))
    | _, _ => (s.suspend c progress).goOn c .goOn
  else
    s.finish c progress
      (.skipped (s!"IMGTYPE {sub.imgtype} has no stars to fit " ++
        "(any_imgtype=true to force)") sub.found)

/-- `submit` once its resolve has come back. -/
def afterResolve (c : CallId) (i : FlightId n) (request : SubmitRequest) (directory : String)
    (result : Result) (s : Server κ n) : Server κ n :=
  let progress := Progress.resolving i request directory
  match result with
  | .lost reason => s.finish c progress (s.coordinatorError (some i) true reason)
  | .unavailable reason tagged =>
      s.finish c progress (s.coordinatorError (if tagged then some i else none) false reason)
  | .response r =>
      if r.msg.ok then
        match r.msg with
        | .resolved found => s.guardSubmit c ⟨request, directory, found⟩
        -- Nothing was found, so `found["physical_filter"]` is a `KeyError`.
        | _ => s.finish c progress (if request.dryRun then .dryRun none else .internalError)
      else s.finish c progress (.httpException 400 (r.msg.errorOr "resolve failed"))

/-! ### Running a job

A push and an ingest end alike: the record gets the result, the plots are queued, and the client is
told.  They begin alike too, but for the lock and the body that a push has in between.
-/

/-- What a push or an ingest checks of its job first. -/
def notPrepared (jobId : JobId) (numWorkers : Option Int) (s : Server κ n) :
    Except (Reply n) JobRecord :=
  match s.jobs jobId with
  | none => .error (.httpException 404 "unknown job_id")
  | some record =>
      if record.state ≠ .prepared then .error (.wrongState record.state)
      else if badWorkers numWorkers then .error (.httpException 400 "num_workers must be >= 1")
      else .ok record

/-- A job's run has ended. -/
def conclude (jobId : JobId) (result : Result) (s : Server κ n) : Server κ n :=
  let s := s.writeJob jobId (JobRecord.concluded result)
  match result with
  | .response r => if r.msg.ok then { s with plots := (s.plots.enqueue jobId).1 } else s
  | _ => s

/-- How the request that ran a job is answered. -/
def runReply (i : FlightId n) (jobId : JobId) (default : String) (result : Result)
    (s : Server κ n) : Reply n :=
  match result with
  | .lost reason => s.coordinatorError (some i) true reason
  | .unavailable reason tagged =>
      s.coordinatorError (if tagged then some i else none) false reason
  | .response r =>
      if r.msg.ok then .ran jobId (s.flights i).generation i
      else .httpException 500 (r.msg.errorOr default)

/-- An ingest's reply, with what its submit adds to it. -/
def submitReply (submission : Option (Option PrepareTimings × Submission)) (reply : Reply n) :
    Reply n :=
  match submission, reply with
  | some (timings, sub), .ran jobId generation i =>
      .submitted jobId generation i sub.found timings sub.note
  | _, _ => reply

/-! ### Ingest

An ingest takes the job in hand in the very segment in which it looks at the record, so that no
other request can come in between.
-/

/-- `ingest`, down to its await. -/
def ingest (c : CallId) (jobId : JobId) (directory : Option String) (numWorkers : Option Int)
    (submission : Option (Option PrepareTimings × Submission)) (s : Server κ n) : Server κ n :=
  let turnedDown := (submission.map fun q => Progress.submitted jobId q.1 q.2).getD .refused
  match s.notPrepared jobId numWorkers with
  | .error reply => s.finish c turnedDown reply
  | .ok record =>
      match absoluteDirectory directory with
      | .error reply => s.finish c turnedDown reply
      | .ok path =>
          let i := s.forPush jobId
          let s := ((s.routed jobId).noteUsed i).setState jobId .computing
          (s.suspend c (.ingesting i jobId path numWorkers record.preparedKey submission)).sendCommand
            i c (.ingest jobId path numWorkers record.preparedKey)

/-! ### Push

A push looks at its record when it comes in, and then waits for the lock of its flight and for its
body; the record is not looked at again.  The body is written into the block of the flight as it
comes in, and the block is read in two places: the header once enough bytes are there, and the
layout at the end.
-/

/-- A push that holds `push_lock` awaits its first chunk. -/
def beginPush (c : CallId) (i : FlightId n) (request : PushRequest) (s : Server κ n) :
    Server κ n :=
  { (s.noteUsed i).suspend c (.header i request 0) with
    pushLocks := update s.pushLocks i ((s.pushLocks i).hold c) }

/-- `push`, down to its first await. -/
def push (c : CallId) (request : PushRequest) (s : Server κ n) : Server κ n :=
  match s.notPrepared request.jobId request.numWorkers with
  | .error reply => s.finish c .refused reply
  | .ok _ =>
      let i := s.forPush request.jobId
      let s := s.routed request.jobId
      if (s.pushLocks i).uncontended then s.beginPush c i request
      else
        { s.suspend c (.queued i request) with
          pushLocks := update s.pushLocks i ((s.pushLocks i).enqueue c) }

/-- The push whose turn it is takes `push_lock`. -/
def takePushLock (i : FlightId n) (s : Server κ n) : Option (Server κ n) :=
  match (s.pushLocks i).next? with
  | none => none
  | some (c, lock) =>
      match s.handlers c with
      | some ⟨.queued _ request, none⟩ =>
          some ({ s with pushLocks := update s.pushLocks i lock }.beginPush c i request)
      | _ => none

/-- `view[received:end] = chunk`, for a chunk that fits. -/
def absorb (i : FlightId n) (received : Nat) (chunk : Bytes) (s : Server κ n) : Server κ n :=
  { s with
    blocks := update s.blocks i
      ((s.blocks i).take received ++ chunk ++ (s.blocks i).drop (received + chunk.length)) }

/-- The next `count` bytes of the body come in, with nothing after them if `last`.  The
first loop goes on until there is a header, the second until there is no more. -/
def chunk (c : CallId) (count : Nat) (last : Bool) (s : Server κ n) : Option (Server κ n) :=
  match s.handlers c with
  | some ⟨.header i request received, none⟩ =>
      if received + count ≤ request.body.length ∧
          (last = true → received + count = request.body.length) then
        if received + count > (s.blocks i).length then
          some (s.endPush c i (.header i request received)
            (.httpException 413 "payload too large"))
        else
          let s := (s.absorb i received (slice request.body received count)).suspend c
            (.header i request (received + count))
          if received + count ≥ headerSize ∨ last then some (s.goOn c (.headerRead last)) else some s
      else none
  | some ⟨.body i request received, none⟩ =>
      if received + count ≤ request.body.length ∧
          (last = true → received + count = request.body.length) then
        if received + count > (s.blocks i).length then
          some (s.endPush c i (.body i request received) (.httpException 413 "payload too large"))
        else
          let s := (s.absorb i received (slice request.body received count)).suspend c
            (.body i request (received + count))
          if last then some (s.goOn c .bodyRead) else some s
      else none
  | _ => none

/-- The client goes away while its body is awaited. -/
def disconnect (c : CallId) (s : Server κ n) : Option (Server κ n) :=
  match s.handlers c with
  | some ⟨.header i request received, none⟩ =>
      some (s.endPush c i (.header i request received) .clientDisconnect)
  | some ⟨.body i request received, none⟩ =>
      some (s.endPush c i (.body i request received) .clientDisconnect)
  | _ => none

/-- The checks between the two loops, on the first bytes of a body of which `received` are
there. -/
def checkHeader (received : Nat) (head : Bytes) : Except (Reply n) HeaderInfo :=
  if received < headerSize then .error (.httpException 400 "body too short for header")
  else
    match parseHeader head with
    | .error (.protocolError message) => .error (.httpException 400 message)
    | .error .unicodeDecodeError => .error .internalError
    | .ok header =>
        if header.payloadLength > maxPushBytes then
          .error (.httpException 413 "payload too large")
        else .ok header

/-- The first loop over the body is over. -/
def afterHeader (c : CallId) (i : FlightId n) (request : PushRequest) (received : Nat)
    (last : Bool) (s : Server κ n) : Server κ n :=
  match checkHeader received (slice (s.blocks i) 0 headerSize) with
  | .error reply => s.endPush c i (.header i request received) reply
  | .ok _ =>
      let s := (s.setState request.jobId .receiving).suspend c (.body i request received)
      if last then s.goOn c .bodyRead else s

/-- The second loop over the body is over. -/
def afterBody (c : CallId) (i : FlightId n) (request : PushRequest) (received : Nat)
    (s : Server κ n) : Server κ n :=
  let progress := Progress.body i request received
  match parseLayout (slice (s.blocks i) 0 received) with
  | .error (.protocolError message) =>
      (s.writeJob request.jobId fun record =>
        { record with state := .error, error := some message }).endPush c i progress
          (.httpException 400 message)
  | .error .unicodeDecodeError => s.endPush c i progress .internalError
  | .ok layout =>
      let key := (s.jobs request.jobId).bind JobRecord.preparedKey
      let s := (s.setState request.jobId .computing).suspend c (.dispatched i request layout key)
      s.sendCommand i c (.push request.jobId layout request.numWorkers key)

/-! ### The rest of a task

A handler that calls something which may come back at once is cut there, and the rest is run before
anything else is.  So what is atomic in the source is atomic here, though it takes several steps.
-/

/-- The task that is being run goes on to its next await. -/
def resume (c : CallId) (r : Resumption) (uuid : JobId) (s : Server κ n) : Option (Server κ n) :=
  match s.handlers c with
  | some ⟨.resolving i request directory, none⟩ =>
      match r with
      | .result result => some (s.afterResolve c i request directory result)
      | _ => none
  | some ⟨.resolved sub, none⟩ =>
      match r with
      | .goOn => s.prepare c sub.command (some sub) uuid
      | _ => none
  | some ⟨.preparing i jobId command submission, none⟩ =>
      match r with
      | .result result => some (s.afterPrepare c i jobId command submission result)
      | _ => none
  | some ⟨.submitted jobId timings sub, none⟩ =>
      match r with
      | .goOn =>
          some (s.ingest c jobId (some sub.directory) sub.request.numWorkers (some (timings, sub)))
      | _ => none
  | some ⟨.ingesting i jobId directory numWorkers key submission, none⟩ =>
      match r with
      | .result result =>
          let s := s.conclude jobId result
          some (s.finish c (.ingesting i jobId directory numWorkers key submission)
            (submitReply submission (s.runReply i jobId "ingest failed" result)))
      | _ => none
  | some ⟨.header i request received, none⟩ =>
      match r with
      | .headerRead last => some (s.afterHeader c i request received last)
      | _ => none
  | some ⟨.body i request received, none⟩ =>
      match r with
      | .bodyRead => some (s.afterBody c i request received)
      | _ => none
  | some ⟨.dispatched i request layout key, none⟩ =>
      match r with
      | .result result =>
          let s := s.conclude request.jobId result
          some (s.endPush c i (.dispatched i request layout key)
            (s.runReply i request.jobId "push failed" result))
      | _ => none
  | _ => none

/-! ### Everything else

A request comes in with a number that was never used; chunks come in for pushes that await one;
flights take their steps, the call of `send_command` apart, which is the server's.  The order is
any order at all.
-/

/-- `admin_plot_job`. -/
def plot (c : CallId) (jobId : JobId) (s : Server κ n) : Server κ n :=
  if PlotQueue.jobIdOk jobId then
    if s.plots.flights = 0 then
      s.finish c .refused (.httpException 409 ("no plot flights are running; start the server " ++
        "with --num-plot-flights 1 or more"))
    else
      let q := s.plots.enqueue jobId
      { s with plots := q.1 }.finish c .refused (.plotting q.2)
  else s.finish c .refused (.httpException 400 "malformed job id")

/-- A flight takes a step of its own, and the server sees what it lets it see. -/
def stepFlight (cfg : CoordSettings) (prog : ChildProgram κ σ) (i : FlightId n)
    (a : FlightAction σ) (s : Server κ n) : Option (Server κ n) :=
  match a with
  | .call .. => none
  | a =>
      ((s.flights i).next cfg prog a).map fun r =>
        { s.noteLoss i r.2.loss with
          flights := update s.flights i r.1
          running := r.2.finished.map fun q => (q.1, .result q.2) }

end Server

/-- What can happen next: a request comes in, one takes a lock or gets more of its body, a
flight takes a step, time passes, or the task that is being run goes on. -/
inductive ServerAction (σ : Type) (n : Nat)
  | prepare (c : CallId) (command : PrepareCommand) (uuid : JobId)
  | submit (c : CallId) (request : SubmitRequest)
  | ingest (c : CallId) (request : IngestRequest)
  | push (c : CallId) (request : PushRequest)
  | plot (c : CallId) (jobId : JobId)
  | takePushLock (i : FlightId n)
  | chunk (c : CallId) (count : Nat) (last : Bool)
  | disconnect (c : CallId)
  | flight (i : FlightId n) (a : FlightAction σ)
  | tick
  | resume (uuid : JobId)

namespace Server

/-- A request whose number was never used comes in. -/
def arrive (c : CallId) (s : Server κ n) (s' : Option (Server κ n)) : Option (Server κ n) :=
  match s.handlers c with
  | none => s'
  | some _ => none

/-- **One step of the server.** -/
def next (cfg : CoordSettings) (prog : ChildProgram κ σ) (s : Server κ n)
    (a : ServerAction σ n) : Option (Server κ n) :=
  match s.running, a with
  | some (c, r), .resume uuid => { s with running := none }.resume c r uuid
  | some _, _ => none
  | none, .prepare c command uuid => s.arrive c (s.prepare c command none uuid)
  | none, .submit c request => s.arrive c (some (s.submit c request))
  | none, .ingest c request =>
      s.arrive c (some (s.ingest c request.jobId request.directory request.numWorkers none))
  | none, .push c request => s.arrive c (some (s.push c request))
  | none, .plot c jobId => s.arrive c (some (s.plot c jobId))
  | none, .takePushLock i => s.takePushLock i
  | none, .chunk c count last => s.chunk c count last
  | none, .disconnect c => s.disconnect c
  | none, .flight i a => s.stepFlight cfg prog i a
  | none, .tick => some { s with clock := s.clock + 1 }
  | none, .resume _ => none

/-- The server as it comes up, on blocks that hold whatever they hold. -/
def started (prog : ChildProgram κ σ) (plotFlights : Nat) (blocks : FlightId n → Bytes) :
    Server κ n where
  flights := fun _ => .started prog
  byJob := fun _ => none
  lastUsed := fun _ => 0
  clock := 0
  jobs := fun _ => none
  submitted := fun _ => none
  pushLocks := fun _ => .free
  blocks := blocks
  plots := .started plotFlights
  handlers := fun _ => none
  running := none

end Server

/-- The runs of the server. -/
def serverSystem (n : Nat) (cfg : CoordSettings) (prog : ChildProgram κ σ) :
    System (Server κ n) (ServerAction σ n) where
  init s := ∃ plotFlights blocks, s = Server.started prog plotFlights blocks
  step s a s' := s.next cfg prog a = some s'

/-- The steps in turn, for runs that are followed on fixed inputs. -/
def Server.follow {n : Nat} (cfg : CoordSettings) (prog : ChildProgram κ σ) :
    List (ServerAction σ n) → Server κ n → Option (Server κ n) :=
  System.follow (Server.next cfg prog)

theorem Server.follow_reach {n : Nat} {cfg : CoordSettings} {prog : ChildProgram κ σ}
    {l : List (ServerAction σ n)} {plotFlights : Nat} {blocks : FlightId n → Bytes}
    {s : Server κ n} (h : Server.follow cfg prog l (Server.started prog plotFlights blocks) = some s) :
    (serverSystem n cfg prog).Reach System.always s :=
  System.Reach.follow (fun _ _ _ hstep => ⟨hstep, trivial⟩) l (.init ⟨_, _, rfl⟩) h

/-! ### Runs to start from

Three stretches that the runs on fixed inputs share: a flight is brought up, a command is answered,
a job is prepared.
-/

/-- Flight `i` is brought up. -/
def Server.bringUp {n : Nat} (i : FlightId n) : List (ServerAction Msg n) :=
  ([.resumeBringUp .startup, .runExecutor none, .runExecutor none, .resumeBringUp .startup,
    .boot 0 .hello, .runExecutor none, .resumeBringUp .startup] : List (FlightAction Msg)).map
      (.flight i)

/-- The command flight `i` waits for with child `k` is answered, and its caller goes on. -/
def Server.answered {n : Nat} (i : FlightId n) (k : ChildId) (reply : Msg) (uuid : JobId) :
    List (ServerAction Msg n) :=
  ([.runExecutor none, .receive k, .answer k reply, .runExecutor none, .resumeCaller] :
    List (FlightAction Msg)).map (.flight i) ++ [.resume uuid]

/-- A prepare to follow. -/
def PrepareCommand.bench : PrepareCommand := ⟨"r_57", 0, 0, "2026-01-01T00:00:00", []⟩

/-- What comes back for it. -/
def Msg.benchPrepared : Msg :=
  .prepared ⟨false, 0, false, 0, 0, 0, 0, 0, (0, 0), false, false, "path", 8, 8, "r_57",
    "2026-01-01T00:00:00"⟩ "config" ⟨[], "r_57", ∅, "2026-01-01T00:00:00"⟩

/-- A job is prepared on flight 0 by request 0. -/
def Server.preparedJob {n : Nat} (jobId : JobId) : List (ServerAction Msg n) :=
  bringUp 0 ++ [.prepare 0 .bench jobId] ++ answered 0 0 .benchPrepared ""

end DonutServer
