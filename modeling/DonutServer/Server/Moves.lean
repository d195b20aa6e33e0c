/-
What one step of the server can do.

Each constructor of `Moves` is one branch of one handler: where it starts from, what
it found, and the state it leaves, built from the small updates.  Every invariant of
the server is a case analysis over it, so no later proof looks into the handlers.

The moves say a little less than the handlers do.  What a client is told is left open where no
claim asks for it, and so is which flight `select` chooses; what is said of them elsewhere is said
of the handlers themselves.
-/
import DonutServer.Server.Step

namespace DonutServer

open Function

variable {κ σ : Type} {n : Nat}

/-! ### What the stages have in common

An invariant asks the same few questions of every request: which job it has in hand, which command
it waits for, and whether more of its body is to come.  A stage answers them here once.
-/

/-- The job a request has taken in hand: its handler will write the record again. -/
def Progress.owns : Progress n → Option JobId
  | .ingesting _ jobId _ _ _ _ => some jobId
  | .body _ request _ => some request.jobId
  | .dispatched _ request _ _ => some request.jobId
  | _ => none

/-- The command a request waits for, and the flight it was sent to. -/
def Progress.sent : Progress n → Option (FlightId n × Command)
  | .resolving i _ directory => some (i, .resolve directory)
  | .preparing i _ command _ => some (i, .prepare command)
  | .ingesting i jobId directory numWorkers key _ =>
      some (i, .ingest jobId directory numWorkers key)
  | .dispatched i request layout key =>
      some (i, .push request.jobId layout request.numWorkers key)
  | _ => none

/-- What the result of a resolve says was found. -/
def Result.found : Result → Option Exposure
  | .response r =>
      match r.msg with
      | .resolved found => some found
      | _ => none
  | _ => none

/-- A push that awaits more of its body. -/
inductive Progress.Receiving (i : FlightId n) (request : PushRequest) (received : Nat) :
    Progress n → Prop
  | header : Receiving i request received (.header i request received)
  | body : Receiving i request received (.body i request received)

/-- What became of a submission at the duplicate guard, or before it. -/
inductive Submission.TurnedDown (submitted : Int → Option JobId) (sub : Submission) :
    Reply n → Prop
  | dryRun (h : sub.request.dryRun = true) : TurnedDown submitted sub (.dryRun (some sub.found))
  | skipped (reason : String) (h : sub.imgtypeAccepted = false) :
      TurnedDown submitted sub (.skipped reason sub.found)
  | duplicate (visit : Int) (previous : JobId) (detail : String)
      (hvisit : sub.guardedVisit = some visit) (h : submitted visit = some previous) :
      TurnedDown submitted sub (.httpException 409 detail)

namespace Server

/-! ### The moves

They go through the stages of a submit, whose prepare and ingest are those of the other requests
too, then through those of a push, and end with the step of a flight.  Where a handler can be left
in two ways that differ in nothing but the reply, they are one move with the reply as a parameter.
-/

/-- Request `c` is at `progress` and has not been answered. -/
def At (s : Server κ n) (c : CallId) (progress : Progress n) : Prop :=
  s.handlers c = some ⟨progress, none⟩

/-- **What a step can do**, from a state with nothing left to run, where `r` is the task
that was being run. -/
inductive Moves (cfg : CoordSettings) (prog : ChildProgram κ σ) (s : Server κ n) :
    Option (CallId × Resumption) → ServerAction σ n → Server κ n → Prop
  | tick : Moves cfg prog s none .tick { s with clock := s.clock + 1 }
  /-- A request is turned away before its first await; a plot request is answered there too. -/
  | refused (c : CallId) (plots : PlotQueue) (reply : Reply n) (a : ServerAction σ n)
      (hc : s.handlers c = none) :
      Moves cfg prog s none a ({ s with plots := plots }.finish c .refused reply)
  /-- A submit asks a flight what its directory holds. -/
  | resolve (c : CallId) (i : FlightId n) (request : SubmitRequest) (directory : String)
      (a : ServerAction σ n) (hc : s.handlers c = none) :
      Moves cfg prog s none a
        ((s.suspend c (.resolving i request directory)).sendCommand i c (.resolve directory))
  /-- It got no answer to that, or one it cannot use. -/
  | unresolved (c : CallId) (i : FlightId n) (request : SubmitRequest) (directory : String)
      (result : Result) (reply : Reply n) (uuid : JobId)
      (hc : s.At c (.resolving i request directory)) :
      Moves cfg prog s (some (c, .result result)) (.resume uuid)
        (s.finish c (.resolving i request directory) reply)
  /-- It was a dry run, of an image type that is not run, or of a visit that was submitted
  before. -/
  | turnedDown (c : CallId) (i : FlightId n) (request : SubmitRequest) (directory : String)
      (result : Result) (sub : Submission) (reply : Reply n) (uuid : JobId)
      (hc : s.At c (.resolving i request directory))
      (hreply : sub.TurnedDown s.submitted reply) :
      Moves cfg prog s (some (c, .result result)) (.resume uuid)
        (s.finish c (.resolved sub) reply)
  /-- It is past the duplicate guard.  Its prepare comes next, in the same segment. -/
  | guarded (c : CallId) (i : FlightId n) (request : SubmitRequest) (directory : String)
      (result : Result) (sub : Submission) (uuid : JobId)
      (hc : s.At c (.resolving i request directory)) (hrun : sub.request.dryRun = false)
      (hok : sub.imgtypeAccepted = true)
      (hguard : ∀ visit, sub.guardedVisit = some visit → s.submitted visit = none)
      (hfound : result.found.map (Submission.mk request directory) = some sub) :
      Moves cfg prog s (some (c, .result result)) (.resume uuid)
        ((s.suspend c (.resolved sub)).goOn c .goOn)
  /-- A prepare is sent, and its job gets a number and a route.  There is no record of it yet. -/
  | prepare (c : CallId) (i : FlightId n) (command : PrepareCommand) (uuid : JobId)
      (hc : s.handlers c = none) (hroute : s.byJob uuid = none) (hjob : s.jobs uuid = none) :
      Moves cfg prog s none (.prepare c command uuid)
        (((s.route uuid i).suspend c (.preparing i uuid command none)).sendCommand i c
          (.prepare command))
  /-- The same for the prepare of a submit. -/
  | prepareSubmitted (c : CallId) (i : FlightId n) (sub : Submission) (uuid : JobId)
      (hc : s.At c (.resolved sub)) (hroute : s.byJob uuid = none) (hjob : s.jobs uuid = none) :
      Moves cfg prog s (some (c, .goOn)) (.resume uuid)
        (((s.route uuid i).suspend c (.preparing i uuid sub.command (some sub))).sendCommand i c
          (.prepare sub.command))
  /-- A submit has overrides or a field that no prepare is sent with. -/
  | invalid (c : CallId) (sub : Submission) (reply : Reply n) (uuid : JobId)
      (hc : s.At c (.resolved sub)) (hreply : ∀ detail, reply ≠ .httpException 409 detail) :
      Moves cfg prog s (some (c, .goOn)) (.resume uuid) (s.finish c (.resolved sub) reply)
  /-- A prepare was refused or lost its child: there is no record, now or later. -/
  | unprepared (c : CallId) (i : FlightId n) (jobId : JobId) (command : PrepareCommand)
      (sub : Option Submission) (result : Result) (reply : Reply n) (uuid : JobId)
      (hc : s.At c (.preparing i jobId command sub)) :
      Moves cfg prog s (some (c, .result result)) (.resume uuid)
        (s.finish c (.preparing i jobId command sub) reply)
  /-- A prepare was answered with a failure: the record is there, with the error. -/
  | prepareFailed (c : CallId) (i : FlightId n) (jobId : JobId) (command : PrepareCommand)
      (sub : Option Submission) (r : Sent) (reply : Reply n) (uuid : JobId)
      (hc : s.At c (.preparing i jobId command sub)) (hok : r.msg.ok = false) :
      Moves cfg prog s (some (c, .result (.response r))) (.resume uuid)
        ((s.newJob jobId (.ofPrepare r.msg)).finish c (.preparing i jobId command sub) reply)
  /-- A prepare succeeded, and its client is told. -/
  | prepared (c : CallId) (i : FlightId n) (jobId : JobId) (command : PrepareCommand)
      (r : Sent) (reply : Reply n) (uuid : JobId)
      (hc : s.At c (.preparing i jobId command none)) (hok : r.msg.ok = true) :
      Moves cfg prog s (some (c, .result (.response r))) (.resume uuid)
        ((s.newJob jobId (.ofPrepare r.msg)).finish c (.preparing i jobId command none) reply)
  /-- The prepare of a submit succeeded: the visit is noted down with the job, and the ingest
  comes next. -/
  | preparedSubmitted (c : CallId) (i : FlightId n) (jobId : JobId) (command : PrepareCommand)
      (sub : Submission) (r : Sent) (uuid : JobId)
      (hc : s.At c (.preparing i jobId command (some sub))) (hok : r.msg.ok = true) :
      Moves cfg prog s (some (c, .result (.response r))) (.resume uuid)
        (({ s.newJob jobId (.ofPrepare r.msg) with
            submitted := sub.record jobId s.submitted }.suspend c
          (.submitted jobId r.msg.prepareTimings sub)).goOn c .goOn)
  /-- A job is taken in hand, straight from its PREPARED record, by a request of its own or by
  the submit that prepared it. -/
  | ingest (c : CallId) (jobId : JobId) (directory : String) (numWorkers : Option Int)
      (record : JobRecord) (sub : Option (Option PrepareTimings × Submission))
      (r : Option (CallId × Resumption)) (a : ServerAction σ n)
      (hc : s.handlers c = none ∧ r = none ∧ sub = none ∨
        ∃ timings sb, s.At c (.submitted jobId timings sb) ∧ r = some (c, .goOn) ∧
          sub = some (timings, sb))
      (hjob : s.jobs jobId = some record) (hstate : record.state = .prepared) :
      Moves cfg prog s r a
        (((((s.routed jobId).noteUsed (s.forPush jobId)).setState jobId .computing).suspend c
          (.ingesting (s.forPush jobId) jobId directory numWorkers record.preparedKey sub)).sendCommand
            (s.forPush jobId) c (.ingest jobId directory numWorkers record.preparedKey))
  /-- A submit finds its job in no state to be ingested. -/
  | uningested (c : CallId) (jobId : JobId) (timings : Option PrepareTimings) (sub : Submission)
      (reply : Reply n) (uuid : JobId) (hc : s.At c (.submitted jobId timings sub)) :
      Moves cfg prog s (some (c, .goOn)) (.resume uuid)
        (s.finish c (.submitted jobId timings sub) reply)
  /-- An ingest comes back, and the record gets what came of it. -/
  | ingested (c : CallId) (i : FlightId n) (jobId : JobId) (directory : String)
      (numWorkers : Option Int) (key : Option PrepareKey)
      (sub : Option (Option PrepareTimings × Submission)) (result : Result) (reply : Reply n)
      (plots : PlotQueue) (uuid : JobId)
      (hc : s.At c (.ingesting i jobId directory numWorkers key sub)) :
      Moves cfg prog s (some (c, .result result)) (.resume uuid)
        ({ s.writeJob jobId (JobRecord.concluded result) with plots := plots }.finish c
          (.ingesting i jobId directory numWorkers key sub) reply)
  /-- A push of a PREPARED job finds the lock of its flight taken. -/
  | pushQueued (c : CallId) (request : PushRequest) (record : JobRecord)
      (hc : s.handlers c = none) (hjob : s.jobs request.jobId = some record)
      (hstate : record.state = .prepared)
      (hlock : (s.pushLocks (s.forPush request.jobId)).uncontended = false) :
      Moves cfg prog s none (.push c request)
        { (s.routed request.jobId).suspend c (.queued (s.forPush request.jobId) request) with
          pushLocks := update s.pushLocks (s.forPush request.jobId)
            ((s.pushLocks (s.forPush request.jobId)).enqueue c) }
  /-- A push finds it free, and reads its body. -/
  | pushBegun (c : CallId) (request : PushRequest) (record : JobRecord)
      (hc : s.handlers c = none) (hjob : s.jobs request.jobId = some record)
      (hstate : record.state = .prepared)
      (hlock : (s.pushLocks (s.forPush request.jobId)).uncontended = true) :
      Moves cfg prog s none (.push c request)
        ((s.routed request.jobId).beginPush c (s.forPush request.jobId) request)
  /-- The push whose turn it is gets the lock.  It does not look at its record again. -/
  | pushGranted (c : CallId) (i j : FlightId n) (request : PushRequest)
      (lock : FifoLock CallId CallId) (hlock : (s.pushLocks i).next? = some (c, lock))
      (hc : s.At c (.queued j request)) :
      Moves cfg prog s none (.takePushLock i)
        ({ s with pushLocks := update s.pushLocks i lock }.beginPush c i request)
  /-- A chunk does not fit into the block.  Where the body was past its header the record stays
  as it is. -/
  | overflow (c : CallId) (count : Nat) (last : Bool) (i : FlightId n) (request : PushRequest)
      (received : Nat) (progress : Progress n) (hp : progress.Receiving i request received)
      (hc : s.At c progress) (hcount : received + count ≤ request.body.length)
      (hfull : (s.blocks i).length < received + count) :
      Moves cfg prog s none (.chunk c count last)
        (s.endPush c i progress (.httpException 413 "payload too large"))
  /-- A chunk comes in before the header was read; with enough of them, or the last, it is read
  next. -/
  | chunkHeader (c : CallId) (count : Nat) (last : Bool) (i : FlightId n) (request : PushRequest)
      (received : Nat) (running : Option (CallId × Resumption))
      (hc : s.At c (.header i request received)) (hcount : received + count ≤ request.body.length)
      (hlast : last = true → received + count = request.body.length)
      (hfits : received + count ≤ (s.blocks i).length)
      (hrunning : running = if received + count ≥ headerSize ∨ last = true
        then some (c, .headerRead last) else s.running) :
      Moves cfg prog s none (.chunk c count last)
        { (s.absorb i received (slice request.body received count)).suspend c
            (.header i request (received + count)) with running := running }
  /-- A chunk of the rest comes in. -/
  | chunkBody (c : CallId) (count : Nat) (last : Bool) (i : FlightId n) (request : PushRequest)
      (received : Nat) (running : Option (CallId × Resumption))
      (hc : s.At c (.body i request received)) (hcount : received + count ≤ request.body.length)
      (hlast : last = true → received + count = request.body.length)
      (hfits : received + count ≤ (s.blocks i).length)
      (hrunning : running = if last = true then some (c, .bodyRead) else s.running) :
      Moves cfg prog s none (.chunk c count last)
        { (s.absorb i received (slice request.body received count)).suspend c
            (.body i request (received + count)) with running := running }
  /-- The client goes away.  The push ends there, and lets go of the lock. -/
  | disconnect (c : CallId) (i : FlightId n) (request : PushRequest) (received : Nat)
      (progress : Progress n) (hp : progress.Receiving i request received)
      (hc : s.At c progress) :
      Moves cfg prog s none (.disconnect c) (s.endPush c i progress .clientDisconnect)
  /-- The header is none.  The record was not touched yet. -/
  | headerRefused (c : CallId) (last : Bool) (i : FlightId n) (request : PushRequest)
      (received : Nat) (reply : Reply n) (uuid : JobId)
      (hc : s.At c (.header i request received))
      (hcheck : checkHeader received (slice (s.blocks i) 0 headerSize) = .error reply) :
      Moves cfg prog s (some (c, .headerRead last)) (.resume uuid)
        (s.endPush c i (.header i request received) reply)
  /-- The header is one: the job is RECEIVING from here on. -/
  | headerAccepted (c : CallId) (last : Bool) (i : FlightId n) (request : PushRequest)
      (received : Nat) (header : HeaderInfo) (uuid : JobId)
      (running : Option (CallId × Resumption))
      (hc : s.At c (.header i request received))
      (hcheck : checkHeader (n := n) received (slice (s.blocks i) 0 headerSize) = .ok header)
      (hrunning : running = if last = true then some (c, .bodyRead) else s.running) :
      Moves cfg prog s (some (c, .headerRead last)) (.resume uuid)
        { (s.setState request.jobId .receiving).suspend c (.body i request received) with
          running := running }
  /-- The body is there and cannot be taken apart: the job ends in ERROR, and the client gets a
  400. -/
  | layoutRefused (c : CallId) (i : FlightId n) (request : PushRequest) (received : Nat)
      (message : String) (uuid : JobId) (hc : s.At c (.body i request received))
      (hparse : parseLayout (slice (s.blocks i) 0 received) = .error (.protocolError message)) :
      Moves cfg prog s (some (c, .bodyRead)) (.resume uuid)
        ((s.writeJob request.jobId fun record =>
          { record with state := .error, error := some message }).endPush c i
            (.body i request received) (.httpException 400 message))
  /-- A name in it is no UTF-8.  No handler catches that, and the record stays as it is. -/
  | layoutCrashed (c : CallId) (i : FlightId n) (request : PushRequest) (received : Nat)
      (uuid : JobId) (hc : s.At c (.body i request received))
      (hparse : parseLayout (slice (s.blocks i) 0 received) = .error .unicodeDecodeError) :
      Moves cfg prog s (some (c, .bodyRead)) (.resume uuid)
        (s.endPush c i (.body i request received) .internalError)
  /-- The layout is sent to the flight: the job is COMPUTING from here on. -/
  | dispatched (c : CallId) (i : FlightId n) (request : PushRequest) (received : Nat)
      (layout : List PartLayout) (key : Option PrepareKey) (uuid : JobId)
      (hc : s.At c (.body i request received))
      (hparse : parseLayout (slice (s.blocks i) 0 received) = .ok layout) :
      Moves cfg prog s (some (c, .bodyRead)) (.resume uuid)
        (((s.setState request.jobId .computing).suspend c
          (.dispatched i request layout key)).sendCommand i c
            (.push request.jobId layout request.numWorkers key))
  /-- A push comes back, and the record gets what came of it. -/
  | pushed (c : CallId) (i : FlightId n) (request : PushRequest) (layout : List PartLayout)
      (key : Option PrepareKey) (result : Result) (reply : Reply n) (plots : PlotQueue)
      (uuid : JobId) (hc : s.At c (.dispatched i request layout key)) :
      Moves cfg prog s (some (c, .result result)) (.resume uuid)
        ({ s.writeJob request.jobId (JobRecord.concluded result) with plots := plots }.endPush c i
          (.dispatched i request layout key) reply)
  /-- A flight takes a step.  If it lost its child its jobs fail, and if that ended a call, the
  request that had made it is the task to be run next. -/
  | flight (i : FlightId n) (a : FlightAction σ) (f : Flight κ) (e : Effects)
      (hcall : ∀ c command, a ≠ .call c command)
      (hstep : (s.flights i).next cfg prog a = some (f, e)) :
      Moves cfg prog s none (.flight i a)
        { s.noteLoss i e.loss with
          flights := update s.flights i f
          running := e.finished.map fun q => (q.1, .result q.2) }

variable {cfg : CoordSettings} {prog : ChildProgram κ σ} {s s' : Server κ n}

/-! ### The handlers, branch by branch

One lemma for each handler, with its own splits: a branch of the definition is a move, whose
premises are what the branch has asked.
-/

theorem requiredStr_error {field : String} {text : Option String} {reply : Reply n}
    (h : requiredStr field text = .error reply) (detail : String) :
    reply ≠ .httpException 409 detail := by
  unfold requiredStr at h
  split at h
  · rw [← Except.error.inj h]
    simp
  · split at h
    · rw [← Except.error.inj h]
      simp
    · exact absurd h (by simp)

theorem invalidPrepare_some {command : PrepareCommand} {reply : Reply n}
    (h : invalidPrepare command = some reply) (detail : String) :
    reply ≠ .httpException 409 detail := by
  unfold invalidPrepare at h
  split at h
  · rename_i heq
    rw [← Option.some.inj h]
    exact requiredStr_error heq detail
  · rename_i heq
    rw [← Option.some.inj h]
    exact requiredStr_error heq detail
  · exact absurd h (by simp)

theorem notPrepared_ok {jobId : JobId} {numWorkers : Option Int} {record : JobRecord}
    (h : s.notPrepared jobId numWorkers = .ok record) :
    s.jobs jobId = some record ∧ record.state = .prepared := by
  unfold notPrepared at h
  split at h
  · exact absurd h (by simp)
  · rename_i record' hjob
    split at h
    · exact absurd h (by simp)
    · rename_i hstate
      split at h
      · exact absurd h (by simp)
      · obtain rfl := Except.ok.inj h
        exact ⟨hjob, not_not.mp hstate⟩

theorem guardSubmit_moves {c : CallId} {i : FlightId n} {request : SubmitRequest}
    {directory : String} {result : Result} {sub : Submission} {uuid : JobId}
    (hc : s.At c (.resolving i request directory))
    (hfound : result.found.map (Submission.mk request directory) = some sub) :
    Moves cfg prog s (some (c, .result result)) (.resume uuid) (s.guardSubmit c sub) := by
  unfold guardSubmit
  dsimp only
  split
  · rename_i hdry
    exact .turnedDown c i request directory result sub _ uuid hc (.dryRun hdry)
  · rename_i hdry
    split
    · rename_i hok
      split
      · rename_i previous visit hprev hvisit
        rw [hvisit] at hprev
        exact .turnedDown c i request directory result sub _ uuid hc
          (.duplicate visit previous _ hvisit hprev)
      · rename_i hother
        refine .guarded c i request directory result sub uuid hc (Bool.not_eq_true _ ▸ hdry) hok ?_ hfound
        intro visit hvisit
        rcases hprev : s.submitted visit with _ | previous
        · rfl
        · exact absurd hvisit (hother previous visit (by rw [hvisit]; exact hprev))
    · rename_i hok
      exact .turnedDown c i request directory result sub _ uuid hc
        (.skipped _ (Bool.not_eq_true _ ▸ hok))

theorem afterResolve_moves {c : CallId} {i : FlightId n} {request : SubmitRequest}
    {directory : String} {result : Result} {uuid : JobId}
    (hc : s.At c (.resolving i request directory)) :
    Moves cfg prog s (some (c, .result result)) (.resume uuid)
      (s.afterResolve c i request directory result) := by
  unfold afterResolve
  dsimp only
  split
  · exact .unresolved c i request directory _ _ uuid hc
  · exact .unresolved c i request directory _ _ uuid hc
  · split
    · split
      · rename_i r _ _ found hmsg
        refine guardSubmit_moves hc ?_
        show Option.map _ (Result.found (.response r)) = _
        unfold Result.found
        simp only [hmsg]
        rfl
      · exact .unresolved c i request directory _ _ uuid hc
    · exact .unresolved c i request directory _ _ uuid hc

theorem afterPrepare_moves {c : CallId} {i : FlightId n} {jobId : JobId} {command : PrepareCommand}
    {sub : Option Submission} {result : Result} {uuid : JobId}
    (hc : s.At c (.preparing i jobId command sub)) :
    Moves cfg prog s (some (c, .result result)) (.resume uuid)
      (s.afterPrepare c i jobId command sub result) := by
  unfold afterPrepare
  dsimp only
  split
  · exact .unprepared c i jobId command sub _ _ uuid hc
  · exact .unprepared c i jobId command sub _ _ uuid hc
  · split
    · rename_i hok
      cases sub with
      | none => exact .prepared c i jobId command _ _ uuid hc hok
      | some sb =>
          exact .preparedSubmitted c i jobId command sb _ uuid hc hok
    · rename_i hok
      exact .prepareFailed c i jobId command sub _ _ uuid hc (Bool.not_eq_true _ ▸ hok)

theorem ingest_moves {c : CallId} {jobId : JobId} {directory : Option String}
    {numWorkers : Option Int} {timings : Option PrepareTimings} {sub : Submission} {uuid : JobId}
    (hc : s.At c (.submitted jobId timings sub)) :
    Moves cfg prog s (some (c, .goOn)) (.resume uuid)
      (s.ingest c jobId directory numWorkers (some (timings, sub))) := by
  unfold ingest
  dsimp only
  split
  · exact .uningested c jobId timings sub _ uuid hc
  · rename_i record hok
    obtain ⟨hjob, hstate⟩ := notPrepared_ok hok
    split
    · exact .uningested c jobId timings sub _ uuid hc
    · exact .ingest c jobId _ numWorkers record _ _ _ (Or.inr ⟨timings, sub, hc, rfl, rfl⟩) hjob hstate

theorem resume_moves {c : CallId} {r : Resumption} {uuid : JobId}
    (h : s.resume c r uuid = some s') : Moves cfg prog s (some (c, r)) (.resume uuid) s' := by
  unfold resume at h
  split at h
  · rename_i i request directory hc
    split at h
    · obtain rfl := Option.some.inj h
      exact afterResolve_moves hc
    · exact absurd h (by simp)
  · rename_i sub hc
    split at h
    · unfold Server.prepare at h
      split at h
      · rename_i reply hbad
        obtain rfl := Option.some.inj h
        exact .invalid c sub reply uuid hc (invalidPrepare_some hbad)
      · split at h
        · rename_i hnew
          obtain rfl := Option.some.inj h
          exact .prepareSubmitted c _ sub uuid hc hnew.1 hnew.2
        · exact absurd h (by simp)
    · exact absurd h (by simp)
  · rename_i i jobId command sub hc
    split at h
    · obtain rfl := Option.some.inj h
      exact afterPrepare_moves hc
    · exact absurd h (by simp)
  · rename_i jobId timings sub hc
    split at h
    · obtain rfl := Option.some.inj h
      exact ingest_moves hc
    · exact absurd h (by simp)
  · rename_i i jobId directory numWorkers key sub hc
    split at h
    · rename_i result
      obtain rfl := Option.some.inj h
      obtain ⟨plots, hplots⟩ : ∃ plots, s.conclude jobId result =
          { s.writeJob jobId (JobRecord.concluded result) with plots := plots } := by
        unfold conclude
        split
        · split <;> exact ⟨_, rfl⟩
        · exact ⟨_, rfl⟩
      rw [hplots]
      exact .ingested c i jobId directory numWorkers key sub result _ plots uuid hc
    · exact absurd h (by simp)
  · rename_i i request received hc
    split at h
    · obtain rfl := Option.some.inj h
      unfold afterHeader
      split
      · rename_i reply hcheck
        exact .headerRefused c _ i request received reply uuid hc hcheck
      · rename_i header hcheck
        split
        · rename_i hlast
          exact .headerAccepted c _ i request received header uuid _ hc hcheck (by rw [if_pos hlast])
        · rename_i hlast
          exact .headerAccepted c _ i request received header uuid _ hc hcheck 
            (by rw [if_neg hlast]; rfl)
    · exact absurd h (by simp)
  · rename_i i request received hc
    split at h
    · obtain rfl := Option.some.inj h
      unfold afterBody
      dsimp only
      split
      · rename_i message hparse
        exact .layoutRefused c i request received message uuid hc hparse
      · rename_i hparse
        exact .layoutCrashed c i request received uuid hc hparse
      · rename_i layout hparse
        exact .dispatched c i request received layout _ uuid hc hparse
    · exact absurd h (by simp)
  · rename_i i request layout key hc
    split at h
    · rename_i result
      obtain rfl := Option.some.inj h
      obtain ⟨plots, hplots⟩ : ∃ plots, s.conclude request.jobId result =
          { s.writeJob request.jobId (JobRecord.concluded result) with plots := plots } := by
        unfold conclude
        split
        · split <;> exact ⟨_, rfl⟩
        · exact ⟨_, rfl⟩
      rw [hplots]
      exact .pushed c i request layout key result _ plots uuid hc
    · exact absurd h (by simp)
  · exact absurd h (by simp)

theorem chunk_moves {c : CallId} {count : Nat} {last : Bool} (h : s.chunk c count last = some s') :
    Moves cfg prog s none (.chunk c count last) s' := by
  unfold chunk at h
  split at h
  · rename_i i request received hc
    split at h
    · rename_i hok
      split at h
      · rename_i hfull
        obtain rfl := Option.some.inj h
        exact .overflow c count last i request received _ .header hc hok.1 hfull
      · rename_i hfits
        dsimp only at h
        split at h
        · rename_i hend
          obtain rfl := Option.some.inj h
          exact .chunkHeader c count last i request received _ hc hok.1 hok.2
            (Nat.le_of_not_lt hfits) (by rw [if_pos hend])
        · rename_i hend
          obtain rfl := Option.some.inj h
          exact .chunkHeader c count last i request received _ hc hok.1 hok.2
            (Nat.le_of_not_lt hfits) (by rw [if_neg hend]; rfl)
    · exact absurd h (by simp)
  · rename_i i request received hc
    split at h
    · rename_i hok
      split at h
      · rename_i hfull
        obtain rfl := Option.some.inj h
        exact .overflow c count last i request received _ .body hc hok.1 hfull
      · rename_i hfits
        dsimp only at h
        split at h
        · rename_i hend
          obtain rfl := Option.some.inj h
          exact .chunkBody c count last i request received _ hc hok.1 hok.2
            (Nat.le_of_not_lt hfits) (by rw [if_pos hend])
        · rename_i hend
          obtain rfl := Option.some.inj h
          exact .chunkBody c count last i request received _ hc hok.1 hok.2
            (Nat.le_of_not_lt hfits) (by rw [if_neg hend]; rfl)
    · exact absurd h (by simp)
  · exact absurd h (by simp)

theorem disconnect_moves {c : CallId} (h : s.disconnect c = some s') :
    Moves cfg prog s none (.disconnect c) s' := by
  unfold disconnect at h
  split at h
  · rename_i i request received hc
    obtain rfl := Option.some.inj h
    exact .disconnect c i request received _ .header hc
  · rename_i i request received hc
    obtain rfl := Option.some.inj h
    exact .disconnect c i request received _ .body hc
  · exact absurd h (by simp)

theorem takePushLock_moves {i : FlightId n} (h : s.takePushLock i = some s') :
    Moves cfg prog s none (.takePushLock i) s' := by
  unfold takePushLock at h
  split at h
  · exact absurd h (by simp)
  · rename_i c lock hlock
    split at h
    · rename_i j request hc
      obtain rfl := Option.some.inj h
      exact .pushGranted c i j request lock hlock hc
    · exact absurd h (by simp)

theorem stepFlight_moves {i : FlightId n} {a : FlightAction σ}
    (h : s.stepFlight cfg prog i a = some s') : Moves cfg prog s none (.flight i a) s' := by
  unfold stepFlight at h
  split at h
  · exact absurd h (by simp)
  · rename_i hcall
    obtain ⟨⟨f, e⟩, hstep, rfl⟩ := Option.map_eq_some_iff.mp h
    exact .flight i a f e hcall hstep

/-! ### Requests that come in

The same for the segments that a request begins with, and then for the step as a whole.  From here
on a step of the server is one of the moves, and what is shown of all moves is shown of all steps.
-/

theorem arrive_some {c : CallId} {after : Option (Server κ n)} (h : s.arrive c after = some s') :
    s.handlers c = none ∧ after = some s' := by
  unfold arrive at h
  split at h
  · rename_i hc
    exact ⟨hc, h⟩
  · exact absurd h (by simp)

theorem submit_moves {c : CallId} {request : SubmitRequest} (hc : s.handlers c = none) :
    Moves cfg prog s none (.submit c request) (s.submit c request) := by
  unfold submit
  split
  · exact .refused c s.plots _ _ hc
  · split
    · exact .refused c s.plots _ _ hc
    · exact .resolve c _ request _ _ hc

theorem push_moves {c : CallId} {request : PushRequest} (hc : s.handlers c = none) :
    Moves cfg prog s none (.push c request) (s.push c request) := by
  unfold push
  split
  · exact .refused c s.plots _ _ hc
  · rename_i record hok
    obtain ⟨hjob, hstate⟩ := notPrepared_ok hok
    dsimp only
    split
    · rename_i hlock
      exact .pushBegun c request record hc hjob hstate hlock
    · rename_i hlock
      exact .pushQueued c request record hc hjob hstate (Bool.not_eq_true _ ▸ hlock)

theorem plot_moves {c : CallId} {jobId : JobId} (hc : s.handlers c = none) :
    Moves cfg prog s none (.plot c jobId) (s.plot c jobId) := by
  unfold plot
  split
  · split
    · exact .refused c s.plots _ _ hc
    · exact .refused c _ _ _ hc
  · exact .refused c s.plots _ _ hc

/-- Who goes on reading is handed no result. -/
theorem reading_running {b : Prop} [Decidable b] {resumption : Resumption}
    {running : Option (CallId × Resumption)}
    (h : running = if b then some (c, resumption) else none) (hread : ∀ r, resumption ≠ .result r)
    (c' : CallId) (r : Result) : running ≠ some (c', .result r) := by
  intro heq
  rw [h] at heq
  split at heq
  · exact hread r (Prod.mk.inj (Option.some.inj heq)).2
  · exact absurd heq (by simp)

/-- **A step is one of the moves.** -/
theorem next_moves {a : ServerAction σ n} (h : s.next cfg prog a = some s') :
    Moves cfg prog { s with running := none } s.running a s' := by
  unfold next at h
  rcases hrunning : s.running with _ | ⟨c, r⟩
  · have hs : { s with running := none } = s := by rw [← hrunning]
    rw [hs]
    rw [hrunning] at h
    cases a with
    | prepare c command uuid =>
        obtain ⟨hc, h⟩ := arrive_some h
        unfold Server.prepare at h
        split at h
        · obtain rfl := Option.some.inj h
          exact .refused c s.plots _ _ hc
        · split at h
          · rename_i hnew
            obtain rfl := Option.some.inj h
            exact .prepare c _ command uuid hc hnew.1 hnew.2
          · exact absurd h (by simp)
    | submit c request =>
        obtain ⟨hc, h⟩ := arrive_some h
        obtain rfl := Option.some.inj h
        exact submit_moves hc
    | ingest c request =>
        obtain ⟨hc, h⟩ := arrive_some h
        obtain rfl := Option.some.inj h
        unfold ingest
        dsimp only
        split
        · exact .refused c s.plots _ _ hc
        · rename_i record hok
          obtain ⟨hjob, hstate⟩ := notPrepared_ok hok
          split
          · exact .refused c s.plots _ _ hc
          · exact .ingest c request.jobId _ request.numWorkers record none none _
              (Or.inl ⟨hc, rfl, rfl⟩) hjob hstate
    | push c request =>
        obtain ⟨hc, h⟩ := arrive_some h
        obtain rfl := Option.some.inj h
        exact push_moves hc
    | plot c jobId =>
        obtain ⟨hc, h⟩ := arrive_some h
        obtain rfl := Option.some.inj h
        exact plot_moves hc
    | takePushLock i => exact takePushLock_moves h
    | chunk c count last => exact chunk_moves h
    | disconnect c => exact disconnect_moves h
    | flight i a => exact stepFlight_moves h
    | tick =>
        obtain rfl := Option.some.inj h
        simpa only [hrunning] using (Moves.tick : Moves cfg prog s none .tick _)
    | resume uuid => exact absurd h (by simp)
  · rw [hrunning] at h
    cases a with
    | resume uuid => exact resume_moves h
    | _ => exact absurd h (by simp)

end Server

end DonutServer
