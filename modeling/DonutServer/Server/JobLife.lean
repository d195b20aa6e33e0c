/-
The life of a job's record.

Two writers move a record: the handler that has the job in hand, which assigns states
without looking at what is there, and the loss handler, which fails whatever its flight has
in progress.  As long as the handler that goes on finds the record as it left it, the two
together never take a step that is not one of `JobRecord.Turn`, where DONE and ERROR are
final, a job is DONE without an error and in ERROR without a result.
-/
import DonutServer.Flight.Serves
import DonutServer.Server.Awaited
import DonutServer.Server.OneRun

namespace DonutServer

open Function

variable {κ σ : Type} {n : Nat} {cfg : CoordSettings} {prog : ChildProgram κ σ}

/-! ### The machine

A record is open, done or in error.  `Turn` lists the changes that are in order; from these alone
it follows that a final record stays as it is and that an error and a result exclude each other, so
that nothing is left to be shown but that every write is a turn.
-/

/-- Nobody is going to write the record again. -/
def JobState.final : JobState → Bool
  | .done | .error => true
  | _ => false

/-- A job that is in progress is not over. -/
theorem JobState.final_of_inProgress {state : JobState} (h : state.inProgress = true) :
    state.final = false := by
  cases state with
  | receiving | computing => rfl
  | _ => exact absurd h (by simp [JobState.inProgress])

/-- A job that is DONE has no error, one in ERROR no result, and any other neither. -/
def JobRecord.Coherent (record : JobRecord) : Prop :=
  match record.state with
  | .done => record.error = none
  | .error => record.result = none
  | _ => record.error = none ∧ record.result = none

namespace JobRecord

/-- **How a record may change**: it is made, PREPARED or in ERROR; a handler takes the job
in hand; its body is there; it fails; it is done. -/
inductive Turn : Option JobRecord → Option JobRecord → Prop
  | stay (record : Option JobRecord) : Turn record record
  | made (record : JobRecord) (hcoherent : record.Coherent) : Turn none (some record)
  | taken (record : JobRecord) (state : JobState) (h : record.state = .prepared)
      (hstate : state = .receiving ∨ state = .computing) :
      Turn (some record) (some { record with state := state })
  | dispatched (record : JobRecord) (h : record.state = .receiving) :
      Turn (some record) (some { record with state := .computing })
  | failed (record : JobRecord) (error : Option String)
      (h : record.state = .error ∨ record.state.inProgress = true) :
      Turn (some record) (some { record with state := .error, error := error })
  | done (record : JobRecord) (table : Option Bytes) (result : Bytes) (h : record.state = .computing) :
      Turn (some record)
        (some { record with state := .done, tableParquet := table, result := some result })

variable {r r' : Option JobRecord} {record record' : JobRecord}

/-- A job that is not over has neither error nor result, -/
theorem Coherent.open (h : record.Coherent) (hstate : record.state.final = false) :
    record.error = none ∧ record.result = none := by
  unfold Coherent at h
  split at h
  · rename_i hdone
    rw [hdone] at hstate
    exact absurd hstate (by simp [JobState.final])
  · rename_i herror
    rw [herror] at hstate
    exact absurd hstate (by simp [JobState.final])
  · exact h

/-- and whatever has neither is coherent. -/
theorem coherent_of_open (h : record.error = none ∧ record.result = none) : record.Coherent := by
  unfold Coherent
  split
  · exact h.1
  · exact h.2
  · exact h

/-- A job that is in progress, or has failed, has no result. -/
theorem Coherent.of_failing (h : record.Coherent)
    (hstate : record.state = .error ∨ record.state.inProgress = true) : record.result = none := by
  rcases hstate with herror | hprogress
  · unfold Coherent at h
    rw [herror] at h
    exact h
  · exact (h.open (JobState.final_of_inProgress hprogress)).2

/-- A turn keeps a record coherent. -/
theorem Turn.coherent (h : Turn r r') (hr : ∀ record, r = some record → record.Coherent)
    (hr' : r' = some record') : record'.Coherent := by
  cases h with
  | stay => exact hr record' hr'
  | made record hcoherent =>
      rw [← Option.some.inj hr']
      exact hcoherent
  | taken record state hstate | dispatched record hstate =>
      have hopen := (hr record rfl).open (by rw [hstate]; rfl)
      rw [← Option.some.inj hr']
      exact coherent_of_open hopen
  | failed record error hstate =>
      have hresult := (hr record rfl).of_failing hstate
      rw [← Option.some.inj hr']
      exact hresult
  | done record table result hstate =>
      have hopen := (hr record rfl).open (by rw [hstate]; rfl)
      rw [← Option.some.inj hr']
      exact hopen.1

/-- A turn leaves a final state what it is. -/
theorem Turn.final (h : Turn (some record) r') (hfinal : record.state.final = true) :
    ∃ record', r' = some record' ∧ record'.state = record.state := by
  cases h with
  | stay => exact ⟨record, rfl, rfl⟩
  | taken _ state hstate | dispatched _ hstate | done _ table result hstate =>
      rw [hstate] at hfinal
      exact absurd hfinal (by simp [JobState.final])
  | failed _ error hstate =>
      refine ⟨_, rfl, ?_⟩
      rcases hstate with herror | hprogress
      · exact herror.symm
      · exact absurd (hfinal.symm.trans (JobState.final_of_inProgress hprogress)) (by simp)

/-! ### What the writers do to a record

Each writer makes its change whatever it finds.  Whether the change is a turn depends on what it
found, and that is a hypothesis of these lemmas, to be discharged from what the handlers keep.
-/

/-- The record that a prepare leaves is coherent. -/
theorem ofPrepare_coherent (reply : Msg) : (ofPrepare reply).Coherent := by
  unfold ofPrepare
  split
  · exact ⟨rfl, rfl⟩
  · exact rfl

/-- A loss fails the record, or leaves it alone. -/
theorem failed_turn (reason : String) (record : JobRecord) :
    Turn (some record) (some (record.failed reason)) := by
  unfold JobRecord.failed
  split
  · rename_i hstate
    refine .failed record _ (Or.inr ?_)
    rcases hstate with hstate | hstate <;> rw [hstate] <;> rfl
  · exact .stay _

/-- The end of a run is done or fails, where what says it is done finds it COMPUTING. -/
theorem concluded_turn (result : Result) (hstate : record.state = .computing ∨ record.state = .error)
    (hdone : ∀ s, result = .response s → record.state = .computing) :
    Turn (some record) (some (record.concluded result)) := by
  have hfailing : record.state = .error ∨ record.state.inProgress = true := by
    rcases hstate with hcomputing | herror
    · exact Or.inr (by rw [hcomputing]; rfl)
    · exact Or.inl herror
  unfold concluded
  split
  · exact .failed record _ hfailing
  · exact .failed record _ hfailing
  · rename_i s
    split
    · exact .done record _ _ (hdone s rfl)
    · exact .failed record _ hfailing

end JobRecord

/-- The command a request has sent runs a job exactly if the request has that run in hand. -/
theorem Progress.sent_runs {progress : Progress n} {i : FlightId n} {command : Command}
    {jobId : JobId} (h : progress.sent = some (i, command)) :
    command.runs jobId = true ↔ progress.stake = some (jobId, .running) := by
  cases progress with
  | ingesting | dispatched =>
      obtain ⟨rfl, rfl⟩ := Prod.mk.inj (Option.some.inj h)
      refine ⟨fun hruns => ?_, fun hstake => ?_⟩
      · rw [← of_decide_eq_true hruns]
        rfl
      · rw [← (Prod.mk.inj (Option.some.inj hstake)).1]
        exact decide_eq_true rfl
  | resolving | preparing =>
      obtain ⟨rfl, rfl⟩ := Prod.mk.inj (Option.some.inj h)
      refine ⟨fun hruns => absurd hruns (by simp [Command.runs]), fun hstake => ?_⟩
      exact absurd hstake (by simp [Progress.stake])
  | _ => exact absurd h (by simp [Progress.sent])

/-- It went to the flight the request is about. -/
theorem Progress.sent_about {progress : Progress n} {i : FlightId n} {command : Command}
    {jobId : JobId} (h : progress.sent = some (i, command))
    (hstake : progress.stake = some (jobId, .running)) : progress.about = some (i, jobId) := by
  cases progress with
  | ingesting | dispatched =>
      obtain ⟨rfl, rfl⟩ := Prod.mk.inj (Option.some.inj h)
      rw [← (Prod.mk.inj (Option.some.inj hstake)).1]
      rfl
  | _ => exact absurd hstake (by simp [Progress.stake])

namespace Server

variable {s s' : Server κ n} {c : CallId} {i : FlightId n} {jobId : JobId}

/-! ### The condition

A handler that comes back from an await goes on with what it knew before.  The condition asks that
this be still so, at each of the places where the source could have looked; it does not speak of
what is written then.
-/

/-- The job's record says `state`. -/
def Stands (s : Server κ n) (jobId : JobId) (state : JobState) : Prop :=
  ∃ record, s.jobs jobId = some record ∧ record.state = state

/-- **Whoever goes on with a job finds its record as it left it.**  A push whose header is
read finds it PREPARED, one whose body is in finds it RECEIVING; a command that had to wait is
handed to the child while it is still COMPUTING; and no flight loses its child behind the back
of the call that is with the child. -/
structure LooksAgain (cfg : CoordSettings) (prog : ChildProgram κ σ) (s : Server κ n)
    (a : ServerAction σ n) : Prop where
  header : s.stale = false
  body : ∀ c i request received layout, s.running = some (c, .bodyRead) →
    s.At c (.body i request received) → parseLayout (slice (s.blocks i) 0 received) = .ok layout →
    s.Stands request.jobId .receiving
  waiting : ∀ i b command jobId, a = .flight i b → (s.flights i).handsOver b = some command →
    command.runs jobId = true → s.Stands jobId .computing
  serving : ∀ i b f e c command jobId, a = .flight i b →
    (s.flights i).next cfg prog b = some (f, e) → e.loss ≠ none → (s.flights i).Serves c command →
    command.runs jobId = true → b = .resumeCaller

/-- Runs in which whoever goes on with a job finds its record as it left it. -/
def looksAgain (cfg : CoordSettings) (prog : ChildProgram κ σ) (s : Server κ n)
    (a : ServerAction σ n) (_ : Server κ n) : Prop := LooksAgain cfg prog s a

/-! ### What the handlers left

In between, the invariant has to say where a record may be while its handler waits: where it was
left, or in ERROR because the flight was lost.  For a command that waits for its turn at the
flight, the lock's order tells whether a loss has come first.
-/

/-- While a request has the job in hand, its record says what it was left at, unless it failed. -/
def LeftAt (s : Server κ n) (jobId : JobId) (state : JobState) : Prop :=
  s.Stands jobId state ∨ s.Stands jobId .error

/-- What every record and every handler keeps while whoever goes on looks again: a call that is
with the child, or whose response is on its way, still finds its job COMPUTING. -/
structure LifeCycle (s : Server κ n) : Prop where
  coherent : ∀ jobId record, s.jobs jobId = some record → record.Coherent
  streaming : ∀ c jobId, s.Stakes c jobId .streaming → s.LeftAt jobId .receiving
  running : ∀ c jobId, s.Stakes c jobId .running → s.LeftAt jobId .computing
  served : ∀ i c command jobId, (s.flights i).Serves c command → command.runs jobId = true →
    s.Stands jobId .computing
  answered : ∀ c r jobId, s.running = some (c, .result (.response r)) →
    s.Stakes c jobId .running → s.Stands jobId .computing

/-- Only the job's record is looked at. -/
theorem Stands.congr {state : JobState} (h : s.Stands jobId state)
    (hjob : s'.jobs jobId = s.jobs jobId) : s'.Stands jobId state := by
  obtain ⟨record, hrecord, hstate⟩ := h
  exact ⟨record, hjob.trans hrecord, hstate⟩

theorem LeftAt.congr {state : JobState} (h : s.LeftAt jobId state)
    (hjob : s'.jobs jobId = s.jobs jobId) : s'.LeftAt jobId state :=
  h.imp (fun hs => hs.congr hjob) fun hs => hs.congr hjob

/-- There is a record, and it says what it was left at or that the job has failed. -/
theorem LeftAt.record {state : JobState} (h : s.LeftAt jobId state) :
    ∃ record, s.jobs jobId = some record ∧ (record.state = state ∨ record.state = .error) := by
  rcases h with ⟨record, hrecord, hstate⟩ | ⟨record, hrecord, hstate⟩
  · exact ⟨record, hrecord, Or.inl hstate⟩
  · exact ⟨record, hrecord, Or.inr hstate⟩

/-- Who is served for a job has it in hand. -/
theorem Awaited.stakes_served {command : Command} (h : s.Awaited)
    (hserves : (s.flights i).Serves c command) (hruns : command.runs jobId = true) :
    s.Stakes c jobId .running := by
  obtain ⟨p, hp, hsent⟩ := h.waits i c command hserves.mem_callers
  exact ⟨p, hp, (Progress.sent_runs hsent).mp hruns⟩

/-! ### A request takes a step

What a step writes is compared with what each of the other requests has left.  Since one request at
a time has a stake in a job, the others are found to have left other jobs.
-/

/-- Nothing is written of a job but by a request that has it in hand, or that finds it
untouched. -/
def Minds (s s' : Server κ n) (c : CallId) : Prop :=
  ∀ jobId, s'.jobs jobId = s.jobs jobId ∨ s.Untouched jobId ∨ ∃ k, s.Stakes c jobId k

/-- What another request has in hand is left alone. -/
theorem Minds.other {c' : CallId} {k : Stake} (h : s.Minds s' c) (hone : s.OneRun jobId)
    (hne : c' ≠ c) (hc' : s.Stakes c' jobId k) (hk : k ≠ .preparing) :
    s'.jobs jobId = s.jobs jobId := by
  rcases h jobId with hsame | hun | ⟨k', hc⟩
  · exact hsame
  · exact absurd hun (hone.touched c' k hc' hk)
  · exact absurd (hone.alone c' c k k' hc' hc) hne

theorem minds_of_same (h : s'.jobs = s.jobs) : s.Minds s' c := fun jobId => Or.inl (congrFun h jobId)

/-- Only one job is written, which is untouched or in the hands of the request. -/
theorem minds_update {job : JobId} {record : Option JobRecord}
    (h : s'.jobs = update s.jobs job record)
    (hjob : s.Untouched job ∨ ∃ k, s.Stakes c job k) : s.Minds s' c := by
  intro jobId
  by_cases hj : jobId = job
  · rw [hj]
    exact Or.inr hjob
  · rw [h]
    exact Or.inl (update_of_ne hj _ _)

/-- **The step of a request.**  It is known to no flight before; after it, it may be served. -/
theorem LifeCycle.step {handler : Handler n} (h : s.LifeCycle) (hone : ∀ jobId, s.OneRun jobId)
    (hawaited : s.Awaited) (hc : s.Uncalled c)
    (hhandlers : s'.handlers = update s.handlers c (some handler)) (hminds : s.Minds s' c)
    (hturn : ∀ jobId, JobRecord.Turn (s.jobs jobId) (s'.jobs jobId))
    (hserves : ∀ i c' command, (s'.flights i).Serves c' command →
      (s.flights i).Serves c' command ∨
        c' = c ∧ ∀ jobId, command.runs jobId = true → s'.Stands jobId .computing)
    (hstreaming : handler.reply = none → ∀ jobId, handler.progress.stake = some (jobId, .streaming) →
      s'.LeftAt jobId .receiving)
    (hself : handler.reply = none → ∀ jobId, handler.progress.stake = some (jobId, .running) →
      s'.Stands jobId .computing)
    (hrunning : ∀ c r, s'.running ≠ some (c, .result (.response r))) : s'.LifeCycle := by
  refine ⟨?_, ?_, ?_, ?_, fun c r jobId hr => absurd hr (hrunning c r)⟩
  · intro jobId record hrecord
    exact (hturn jobId).coherent (h.coherent jobId) hrecord
  · intro c' jobId hc'
    rcases hc'.before hhandlers with ⟨_, hreply, hstake⟩ | ⟨hne, hbefore⟩
    · exact hstreaming hreply jobId hstake
    · exact (h.streaming c' jobId hbefore).congr
        (hminds.other (hone jobId) hne hbefore (by simp))
  · intro c' jobId hc'
    rcases hc'.before hhandlers with ⟨_, hreply, hstake⟩ | ⟨hne, hbefore⟩
    · exact Or.inl (hself hreply jobId hstake)
    · exact (h.running c' jobId hbefore).congr (hminds.other (hone jobId) hne hbefore (by simp))
  · intro i c' command jobId hc' hruns
    rcases hserves i c' command hc' with hbefore | ⟨_, hnew⟩
    · have hstakes := hawaited.stakes_served hbefore hruns
      have hne : c' ≠ c := by
        intro heq
        rw [heq] at hbefore
        exact hc i command hbefore.mem_callers
      exact (h.served i c' command jobId hbefore hruns).congr
        (hminds.other (hone jobId) hne hstakes (by simp))
    · exact hnew jobId hruns

/-- A request that writes no record and sends nothing. -/
theorem LifeCycle.quiet {handler : Handler n} (h : s.LifeCycle) (hone : ∀ jobId, s.OneRun jobId)
    (hawaited : s.Awaited) (hc : s.Uncalled c)
    (hhandlers : s'.handlers = update s.handlers c (some handler))
    (hsame : (s'.jobs, s'.flights) = (s.jobs, s.flights))
    (hidle : handler.reply = none → ∀ jobId k, handler.progress.stake ≠ some (jobId, k))
    (hrunning : ∀ c r, s'.running ≠ some (c, .result (.response r))) : s'.LifeCycle := by
  simp only [Prod.mk.injEq] at hsame
  obtain ⟨hjobs, hflights⟩ := hsame
  refine h.step hone hawaited hc hhandlers (minds_of_same hjobs) ?_ ?_ ?_ ?_ hrunning
  · intro jobId
    rw [hjobs]
    exact .stay _
  · intro i c' command hserves
    rw [hflights] at hserves
    exact Or.inl hserves
  · exact fun hreply jobId hstake => absurd hstake (hidle hreply jobId _)
  · exact fun hreply jobId hstake => absurd hstake (hidle hreply jobId _)

/-- Who is served after a command was sent was served before, or sent it. -/
theorem sendCommand_serves {c' : CallId} {command command' : Command} {j : FlightId n}
    (h : ((s.sendCommand i c command).flights j).Serves c' command') :
    (s.flights j).Serves c' command' ∨ c' = c ∧ command' = command := by
  have h : (update s.flights i ((s.flights i).call c command).1 j).Serves c' command' := h
  by_cases hj : j = i
  · subst hj
    rw [update_self] at h
    exact Flight.call_serves h
  · rw [update_of_ne hj] at h
    exact Or.inl h

/-- To send a command brings no answer at once. -/
theorem sendCommand_running {command : Command} (c' : CallId) (r : Sent) :
    (s.sendCommand i c command).running ≠ some (c', .result (.response r)) := by
  intro hr
  obtain ⟨⟨c'', q⟩, hfin, heq⟩ := Option.map_eq_some_iff.mp hr
  obtain ⟨rfl, hq⟩ := Prod.mk.inj heq
  have hq : q = .response r := Resumption.result.inj hq
  rw [hq] at hfin
  unfold Flight.call at hfin
  split at hfin
  · exact absurd hfin Flight.underLock_finished
  · exact absurd hfin (by simp)

/-! ### One step, and every run

The moves fall into four kinds: those that send no command that runs a job, those that send one,
those that write a record and send nothing, and the steps of a flight.  For each kind there is one
lemma, and the step lemma only sorts the moves.
-/

theorem concluded_turn {result : Result} (hjob : s.LeftAt jobId .computing)
    (hdone : ∀ r, result = .response r → s.Stands jobId .computing) :
    JobRecord.Turn (s.jobs jobId) ((s.jobs jobId).map (JobRecord.concluded result)) := by
  obtain ⟨record, hrecord, hstate⟩ := hjob.record
  rw [hrecord]
  refine JobRecord.concluded_turn result hstate fun r hr => ?_
  obtain ⟨record', hrecord', hstate'⟩ := hdone r hr
  rw [Option.some.inj (hrecord.symm.trans hrecord')]
  exact hstate'

/-- A loss takes a record one turn on. -/
theorem noteLoss_turn (i : FlightId n) (loss : Option Loss) (jobId : JobId) :
    JobRecord.Turn (s.jobs jobId) ((s.noteLoss i loss).jobs jobId) := by
  rcases noteLoss_jobs (s := s) i loss jobId with hjobs | ⟨reason, hjobs⟩
  · rw [hjobs]
    exact .stay _
  · rw [hjobs]
    cases s.jobs jobId with
    | none => exact .stay _
    | some record => exact JobRecord.failed_turn reason record

/-- A record that a loss fails is where it was left still, or in ERROR. -/
theorem LeftAt.noteLoss {state : JobState} (h : s.LeftAt jobId state) (i : FlightId n)
    (loss : Option Loss) : (s.noteLoss i loss).LeftAt jobId state := by
  rcases noteLoss_jobs (s := s) i loss jobId with hjobs | ⟨reason, hjobs⟩
  · exact h.congr hjobs
  · obtain ⟨record, hrecord, hstate⟩ := h.record
    have hafter : (s.noteLoss i loss).jobs jobId = some (record.failed reason) := by
      rw [hjobs, hrecord]
      rfl
    unfold JobRecord.failed at hafter
    split at hafter
    · exact Or.inr ⟨_, hafter, rfl⟩
    · rcases hstate with hstate | hstate
      · exact Or.inl ⟨record, hafter, hstate⟩
      · exact Or.inr ⟨record, hafter, hstate⟩

/-- One record is written, and the others stay. -/
theorem update_turn {job : JobId} {record : Option JobRecord}
    (hjob : JobRecord.Turn (s.jobs job) record) (jobId : JobId) :
    JobRecord.Turn (s.jobs jobId) (update s.jobs job record jobId) := by
  by_cases hj : jobId = job
  · rw [hj, update_self]
    exact hjob
  · rw [update_of_ne hj]
    exact .stay _

theorem map_turn {job : JobId} {record : JobRecord} {g : JobRecord → JobRecord}
    (hrecord : s.jobs job = some record) (hg : JobRecord.Turn (some record) (some (g record)))
    (jobId : JobId) :
    JobRecord.Turn (s.jobs jobId) (update s.jobs job ((s.jobs job).map g) jobId) := by
  refine update_turn ?_ jobId
  rw [hrecord]
  exact hg

/-- **Every step is a turn of every record.** -/
theorem LifeCycle.turn {a : ServerAction σ n} (h : s.LifeCycle) (hone : ∀ jobId, s.OneRun jobId)
    (hlooks : LooksAgain cfg prog s a) (hstep : s.next cfg prog a = some s') (jobId : JobId) :
    JobRecord.Turn (s.jobs jobId) (s'.jobs jobId) := by
  have hm := next_moves hstep
  generalize hr : s.running = r at hm
  cases hm with
  | prepareFailed c _ job _ _ r _ _ hc | prepared c _ job _ r _ _ hc
  | preparedSubmitted c _ job _ _ r _ hc =>
      have hnew := (hone job).unknown c (At.stakes hc rfl)
      refine update_turn (s := s) ?_ jobId
      rw [hnew]
      exact .made _ (JobRecord.ofPrepare_coherent _)
  | ingest c job _ _ record _ _ _ _ hjob hstate =>
      exact map_turn (s := s) (g := fun record => { record with state := .computing }) hjob
        (.taken record .computing hstate (Or.inr rfl)) jobId
  | ingested c _ job _ _ _ _ result _ _ _ hc =>
      refine update_turn (s := s) (concluded_turn (h.running c job (At.stakes hc rfl)) ?_) jobId
      intro r hresult
      rw [hresult] at hr
      exact h.answered c r job hr (At.stakes hc rfl)
  | pushed c _ request _ _ result _ _ _ hc =>
      refine update_turn (s := s) (concluded_turn (h.running c _ (At.stakes hc rfl)) ?_) jobId
      intro r hresult
      rw [hresult] at hr
      exact h.answered c r _ hr (At.stakes hc rfl)
  | headerAccepted c _ _ request _ _ _ _ hc hcheck =>
      obtain ⟨record, hrecord, hstate⟩ := fresh_of_not_stale hlooks.header hr hc hcheck
      exact map_turn (s := s) (g := fun record => { record with state := .receiving }) hrecord
        (.taken record .receiving hstate (Or.inl rfl)) jobId
  | layoutRefused c _ request _ message _ hc =>
      obtain ⟨record, hrecord, hstate⟩ := (h.streaming c request.jobId (At.stakes hc rfl)).record
      have hfailing : record.state = .error ∨ record.state.inProgress = true := by
        rcases hstate with hstate | hstate
        · exact Or.inr (by rw [hstate]; rfl)
        · exact Or.inl hstate
      exact map_turn (s := s)
        (g := fun record => { record with state := .error, error := some message }) hrecord
        (.failed record _ hfailing) jobId
  | dispatched c i request received layout _ _ hc hparse =>
      obtain ⟨record, hrecord, hstate⟩ := hlooks.body c i request received layout hr hc hparse
      exact map_turn (s := s) (g := fun record => { record with state := .computing }) hrecord
        (.dispatched record hstate) jobId
  | flight i _ _ e => exact noteLoss_turn (s := { s with running := none }) i e.loss jobId
  | _ => exact .stay _

/-- A request sends a command that runs no job. -/
theorem LifeCycle.ask {t : Server κ n} {progress : Progress n} {command : Command} (h : s.LifeCycle)
    (hone : ∀ jobId, s.OneRun jobId) (hawaited : s.Awaited) (hc : s.Uncalled c)
    (hsame : (t.jobs, t.flights) = (s.jobs, s.flights))
    (hhandlers : t.handlers = update s.handlers c (some ⟨progress, none⟩))
    (hruns : ∀ jobId, command.runs jobId = false)
    (hstake : ∀ jobId k, progress.stake = some (jobId, k) → k = .preparing) :
    (t.sendCommand i c command).LifeCycle := by
  simp only [Prod.mk.injEq] at hsame
  obtain ⟨hjobs, hflights⟩ := hsame
  refine h.step hone hawaited hc hhandlers (minds_of_same hjobs) ?_ ?_ ?_ ?_ sendCommand_running
  · intro jobId
    rw [show (t.sendCommand i c command).jobs = s.jobs from hjobs]
    exact .stay _
  · intro j c' command' hserves
    rcases sendCommand_serves hserves with hbefore | ⟨hc', hcommand⟩
    · rw [hflights] at hbefore
      exact Or.inl hbefore
    · refine Or.inr ⟨hc', fun jobId hr => ?_⟩
      rw [hcommand, hruns jobId] at hr
      exact absurd hr (by simp)
  · exact fun _ jobId hk => absurd (hstake jobId _ hk) (by simp)
  · exact fun _ jobId hk => absurd (hstake jobId _ hk) (by simp)

/-- A request marks a job COMPUTING and sends the command that runs it. -/
theorem LifeCycle.run {t : Server κ n} {progress : Progress n} {command : Command} {job : JobId}
    (record : JobRecord) (h : s.LifeCycle) (hone : ∀ jobId, s.OneRun jobId) (hawaited : s.Awaited)
    (hc : s.Uncalled c) (hflights : t.flights = s.flights)
    (hjobs : t.jobs = update s.jobs job (some { record with state := .computing }))
    (hhandlers : t.handlers = update s.handlers c (some ⟨progress, none⟩))
    (hruns : ∀ jobId, command.runs jobId = true → jobId = job)
    (hstake : progress.stake = some (job, .running))
    (hjob : s.Untouched job ∨ ∃ k, s.Stakes c job k)
    (hturn : JobRecord.Turn (s.jobs job) (some { record with state := .computing })) :
    (t.sendCommand i c command).LifeCycle := by
  have hstands : (t.sendCommand i c command).Stands job .computing := by
    refine ⟨{ record with state := .computing }, ?_, rfl⟩
    show t.jobs job = _
    rw [hjobs, update_self]
  refine h.step hone hawaited hc hhandlers (minds_update hjobs hjob) ?_ ?_ ?_ ?_ sendCommand_running
  · intro jobId
    rw [show (t.sendCommand i c command).jobs = _ from hjobs]
    exact update_turn hturn jobId
  · intro j c' command' hserves
    rcases sendCommand_serves hserves with hbefore | ⟨hc', hcommand⟩
    · rw [hflights] at hbefore
      exact Or.inl hbefore
    · refine Or.inr ⟨hc', fun jobId hr => ?_⟩
      rw [hcommand] at hr
      rw [hruns jobId hr]
      exact hstands
  · intro _ jobId hk
    exact absurd (Prod.mk.inj (Option.some.inj (hstake.symm.trans hk))).2 (by simp)
  · intro _ jobId hk
    rw [← (Prod.mk.inj (Option.some.inj (hstake.symm.trans hk))).1]
    exact hstands

/-- A request writes a job's record and sends nothing. -/
theorem LifeCycle.write {handler : Handler n} {job : JobId} {record : Option JobRecord}
    (h : s.LifeCycle) (hone : ∀ jobId, s.OneRun jobId) (hawaited : s.Awaited) (hc : s.Uncalled c)
    (hflights : s'.flights = s.flights) (hjobs : s'.jobs = update s.jobs job record)
    (hhandlers : s'.handlers = update s.handlers c (some handler))
    (hjob : s.Untouched job ∨ ∃ k, s.Stakes c job k)
    (hturn : JobRecord.Turn (s.jobs job) record)
    (hstake : handler.reply = none → ∀ jobId k, handler.progress.stake = some (jobId, k) →
      k = .streaming ∧ s'.LeftAt jobId .receiving)
    (hrunning : ∀ c r, s'.running ≠ some (c, .result (.response r))) : s'.LifeCycle := by
  refine h.step hone hawaited hc hhandlers (minds_update hjobs hjob) ?_ ?_ ?_ ?_ hrunning
  · intro jobId
    rw [hjobs]
    exact update_turn hturn jobId
  · intro j c' command hserves
    rw [hflights] at hserves
    exact Or.inl hserves
  · exact fun hreply jobId hk => (hstake hreply jobId _ hk).2
  · exact fun hreply jobId hk => absurd (hstake hreply jobId _ hk).1 (by simp)

/-- A flight takes a step: it loses its child behind nobody's back that is served, and hands
over no command whose job has failed. -/
theorem LifeCycle.flight {a : FlightAction σ} {f : Flight κ} {e : Effects} (h : s.LifeCycle)
    (hawaited : s.Awaited) (hrouted : s.Routed)
    (hlooks : LooksAgain cfg prog s (.flight i a : ServerAction σ n))
    (hcall : ∀ c command, a ≠ .call c command)
    (hflight : (s.flights i).next cfg prog a = some (f, e)) :
    LifeCycle { s.noteLoss i e.loss with
      flights := update s.flights i f
      running := e.finished.map fun q => (q.1, .result q.2) } := by
  have hstakes : ∀ {c jobId k}, Stakes { s.noteLoss i e.loss with
      flights := update s.flights i f
      running := e.finished.map fun q => (q.1, .result q.2) } c jobId k → s.Stakes c jobId k := by
    intro c jobId k hx
    obtain ⟨p, hp, hstake⟩ := hx
    exact ⟨p, (congrFun (noteLoss_handlers i e.loss) c).symm.trans hp, hstake⟩
  have hleft : ∀ {jobId state}, s.LeftAt jobId state →
      LeftAt { s.noteLoss i e.loss with
        flights := update s.flights i f
        running := e.finished.map fun q => (q.1, .result q.2) } jobId state :=
    fun hjob => (hjob.noteLoss i e.loss).congr rfl
  have hsame : e.loss = none → (s.noteLoss i e.loss).jobs = s.jobs := by
    intro hloss
    rw [hloss]
    rfl
  refine ⟨?_, ?_, ?_, ?_, ?_⟩
  · intro jobId record hrecord
    exact (noteLoss_turn i e.loss jobId).coherent (h.coherent jobId) hrecord
  · exact fun c jobId hc => hleft (h.streaming c jobId (hstakes hc))
  · exact fun c jobId hc => hleft (h.running c jobId (hstakes hc))
  · intro j c command jobId hserves hruns
    have hserves : (update s.flights i f j).Serves c command := hserves
    by_cases hj : j = i
    · subst hj
      rw [update_self] at hserves
      rcases Flight.next_serves hcall hflight hserves with ⟨hbefore, hnot⟩ | ⟨hhands, hloss⟩
      · have hloss : e.loss = none := by
          by_contra hlost
          exact hnot (hlooks.serving j a f e c command jobId rfl hflight hlost hbefore hruns)
        exact (h.served j c command jobId hbefore hruns).congr (congrFun (hsame hloss) jobId)
      · exact (hlooks.waiting j a command jobId rfl hhands hruns).congr (congrFun (hsame hloss) jobId)
    · rw [update_of_ne hj] at hserves
      have hroute : s.byJob jobId = some j := by
        obtain ⟨p, hp, hsent⟩ := hawaited.waits j c command hserves.mem_callers
        exact hrouted.about c p j jobId hp
          (Progress.sent_about hsent ((Progress.sent_runs hsent).mp hruns))
      refine (h.served j c command jobId hserves hruns).congr ?_
      show (s.noteLoss i e.loss).jobs jobId = _
      cases e.loss with
      | none => rfl
      | some loss =>
          refine if_neg ?_
          rw [hroute]
          exact fun heq => hj (Option.some.inj heq)
  · intro c r jobId hr hc
    obtain ⟨⟨c', q⟩, hfin, heq⟩ := Option.map_eq_some_iff.mp hr
    obtain ⟨rfl, hq⟩ := Prod.mk.inj heq
    have hq : q = .response r := Resumption.result.inj hq
    rw [hq] at hfin
    obtain ⟨⟨command, hserves⟩, hloss⟩ := Flight.response_serves hflight hfin
    obtain ⟨p, hp, hstake⟩ := hstakes hc
    obtain ⟨p', hp', hsent⟩ := hawaited.waits i c' command hserves.mem_callers
    rw [show p' = p from congrArg Handler.progress (Option.some.inj (hp'.symm.trans hp))] at hsent
    have hruns := (Progress.sent_runs hsent).mpr hstake
    exact (h.served i c' command jobId hserves hruns).congr (congrFun (hsame hloss) jobId)

/-- The step lemma. -/
theorem LifeCycle.next {a : ServerAction σ n} (h : s.LifeCycle) (hone : ∀ jobId, s.OneRun jobId)
    (hawaited : s.Awaited) (hrouted : s.Routed) (hlooks : LooksAgain cfg prog s a)
    (hstep : s.next cfg prog a = some s') : s'.LifeCycle := by
  have hturn := h.turn hone hlooks hstep
  have hm := next_moves hstep
  generalize hr : s.running = r at hm
  have h₀ : LifeCycle { s with running := none } :=
    ⟨h.coherent, h.streaming, h.running, h.served, fun c r jobId hr => absurd hr (by simp)⟩
  have hone₀ : ∀ jobId, OneRun { s with running := none } jobId := fun jobId => (hone jobId).congr rfl
  have haw₀ : Awaited { s with running := none } :=
    ⟨hawaited.nodup, hawaited.waits, fun c r hr => absurd hr (by simp)⟩
  have hrest : ∀ c r, (none : Option (CallId × Resumption)) ≠ some (c, .result (.response r)) := by
    simp
  have hdone : ∀ {c : CallId} {q : Result}, r = some (c, .result q) →
      Uncalled { s with running := none } c := fun hq => hawaited.ended _ _ (hr.trans hq)
  cases hm with
  | tick => exact ⟨h.coherent, h.streaming, h.running, h.served, fun c r jobId hr => absurd hr (by simp)⟩
  | refused c _ _ _ hc =>
      exact h₀.quiet hone₀ haw₀ (haw₀.uncalled_of_none hc) rfl rfl
        (fun hreply => absurd hreply (by simp)) hrest
  | pushQueued c _ _ hc | pushBegun c _ _ hc =>
      exact h₀.quiet hone₀ haw₀ (haw₀.uncalled_of_none hc) rfl rfl
        (fun _ _ _ => by simp [Progress.stake]) hrest
  | unresolved c | turnedDown c | unprepared c =>
      exact h₀.quiet hone₀ haw₀ (hdone rfl) rfl rfl (fun hreply => absurd hreply (by simp)) hrest
  | guarded c =>
      refine h₀.quiet hone₀ haw₀ (hdone rfl) rfl rfl (fun _ _ _ => by simp [Progress.stake]) ?_
      intro c' r' heq
      exact absurd (Prod.mk.inj (Option.some.inj heq)).2 (by simp)
  | invalid c _ _ _ hc | uningested c _ _ _ _ _ hc | headerRefused c _ _ _ _ _ _ hc
  | layoutCrashed c _ _ _ _ hc =>
      exact h₀.quiet hone₀ haw₀ (haw₀.uncalled_at hc rfl) rfl rfl
        (fun hreply => absurd hreply (by simp)) hrest
  | overflow c _ _ _ _ _ _ hp hc | disconnect c _ _ _ _ hp hc =>
      exact h₀.quiet hone₀ haw₀ (haw₀.uncalled_at hc (by cases hp <;> rfl)) rfl rfl
        (fun hreply => absurd hreply (by simp)) hrest
  | pushGranted c _ _ _ _ _ hc =>
      exact h₀.quiet hone₀ haw₀ (haw₀.uncalled_at hc rfl) rfl rfl
        (fun _ _ _ => by simp [Progress.stake]) hrest
  | chunkHeader c _ _ _ _ _ _ hc _ _ _ hrunning =>
      exact h₀.quiet hone₀ haw₀ (haw₀.uncalled_at hc rfl) rfl rfl
        (fun _ _ _ => by simp [Progress.stake])
        fun c' r' => reading_running hrunning (by simp) c' (.response r')
  | chunkBody c _ _ _ request _ _ hc _ _ _ hrunning =>
      refine h₀.step hone₀ haw₀ (haw₀.uncalled_at hc rfl) rfl (minds_of_same rfl) hturn
        (fun _ _ _ hserves => Or.inl hserves) ?_ ?_ ?_
      · intro _ jobId hk
        have hstreams : s.Stakes c jobId .streaming := At.stakes hc hk
        exact (h.streaming c jobId hstreams).congr rfl
      · intro _ jobId hk
        exact absurd (Prod.mk.inj (Option.some.inj hk)).2 (by simp)
      · exact fun c' r' => reading_running hrunning (by simp) c' (.response r')
  | resolve c _ _ _ _ hc =>
      exact h₀.ask hone₀ haw₀ (haw₀.uncalled_of_none hc) rfl rfl (fun _ => rfl)
        fun _ _ hk => absurd hk (by simp [Progress.stake])
  | prepare c _ _ _ hc =>
      exact h₀.ask hone₀ haw₀ (haw₀.uncalled_of_none hc) rfl rfl (fun _ => rfl)
        fun _ _ hk => (Prod.mk.inj (Option.some.inj hk)).2.symm
  | prepareSubmitted c _ _ _ hc =>
      exact h₀.ask hone₀ haw₀ (haw₀.uncalled_at hc rfl) rfl rfl (fun _ => rfl)
        fun _ _ hk => (Prod.mk.inj (Option.some.inj hk)).2.symm
  | prepareFailed c _ job _ _ r _ _ hc | prepared c _ job _ r _ _ hc =>
      have hnew := (hone job).unknown c (At.stakes hc rfl)
      refine h₀.write hone₀ haw₀ (hdone rfl) rfl rfl rfl (Or.inr ⟨_, At.stakes hc rfl⟩) ?_
        (fun hreply => absurd hreply (by simp)) hrest
      rw [show Server.jobs { s with running := none } job = none from hnew]
      exact .made _ (JobRecord.ofPrepare_coherent _)
  | preparedSubmitted c _ job _ _ r _ hc =>
      have hnew := (hone job).unknown c (At.stakes hc rfl)
      refine h₀.write hone₀ haw₀ (hdone rfl) rfl rfl rfl (Or.inr ⟨_, At.stakes hc rfl⟩) ?_
        (fun _ _ _ hk => absurd hk (by simp [Progress.stake])) ?_
      · rw [show Server.jobs { s with running := none } job = none from hnew]
        exact .made _ (JobRecord.ofPrepare_coherent _)
      · intro c' r' heq
        exact absurd (Prod.mk.inj (Option.some.inj heq)).2 (by simp)
  | ingest c job directory numWorkers record sub _ _ hc hjob hstate =>
      have hjob : s.jobs job = some record := hjob
      have huncalled : Uncalled { s with running := none } c := by
        rcases hc with ⟨hc, _⟩ | ⟨_, _, hc, _⟩
        · exact haw₀.uncalled_of_none hc
        · exact haw₀.uncalled_at hc rfl
      refine h₀.run record hone₀ haw₀ huncalled rfl ?_ rfl
        (fun jobId hruns => (of_decide_eq_true hruns).symm) rfl (Or.inl ?_) ?_
      · show update s.jobs job ((s.jobs job).map _) = _
        rw [hjob]
        rfl
      · exact untouched_of_prepared (s := { s with running := none }) hjob hstate
      · rw [show Server.jobs { s with running := none } job = some record from hjob]
        exact .taken record .computing hstate (Or.inr rfl)
  | ingested c _ job _ _ _ _ result _ _ _ hc =>
      refine h₀.write hone₀ haw₀ (hdone rfl) rfl rfl rfl (Or.inr ⟨_, At.stakes hc rfl⟩)
        (concluded_turn (h.running c job (At.stakes hc rfl)) ?_)
        (fun hreply => absurd hreply (by simp)) hrest
      intro r hresult
      rw [hresult] at hr
      exact h.answered c r job hr (At.stakes hc rfl)
  | pushed c _ request _ _ result _ _ _ hc =>
      refine h₀.write hone₀ haw₀ (hdone rfl) rfl rfl rfl (Or.inr ⟨_, At.stakes hc rfl⟩)
        (concluded_turn (h.running c request.jobId (At.stakes hc rfl)) ?_)
        (fun hreply => absurd hreply (by simp)) hrest
      intro r hresult
      rw [hresult] at hr
      exact h.answered c r request.jobId hr (At.stakes hc rfl)
  | headerAccepted c last i request received header _ _ hc hcheck hrunning =>
      obtain ⟨record, hrecord, hstate⟩ := fresh_of_not_stale hlooks.header hr hc hcheck
      refine h₀.step hone₀ haw₀ (haw₀.uncalled_at hc rfl) rfl (minds_update rfl (Or.inl ?_)) hturn
        (fun _ _ _ hserves => Or.inl hserves) ?_ ?_ ?_
      · exact untouched_of_prepared (s := { s with running := none }) hrecord hstate
      · intro _ jobId hk
        obtain ⟨rfl, -⟩ := Prod.mk.inj (Option.some.inj hk)
        refine Or.inl ⟨{ record with state := .receiving }, ?_, rfl⟩
        show update s.jobs request.jobId ((s.jobs request.jobId).map _) request.jobId = _
        rw [update_self, hrecord]
        rfl
      · intro _ jobId hk
        exact absurd (Prod.mk.inj (Option.some.inj hk)).2 (by simp)
      · exact fun c' r' => reading_running hrunning (by simp) c' (.response r')
  | layoutRefused c _ request _ message _ hc =>
      have hself : JobRecord.Turn (s.jobs request.jobId) (update s.jobs request.jobId
          ((s.jobs request.jobId).map fun record =>
            { record with state := .error, error := some message }) request.jobId) :=
        hturn request.jobId
      rw [update_self] at hself
      exact h₀.write hone₀ haw₀ (haw₀.uncalled_at hc rfl) rfl rfl rfl
        (Or.inr ⟨_, At.stakes hc rfl⟩) hself (fun hreply => absurd hreply (by simp)) hrest
  | dispatched c i request received layout key _ hc hparse =>
      obtain ⟨record, hrecord, hstate⟩ := hlooks.body c i request received layout hr hc hparse
      refine h₀.run record hone₀ haw₀ (haw₀.uncalled_at hc rfl) rfl ?_ rfl
        (fun jobId hruns => (of_decide_eq_true hruns).symm) rfl (Or.inr ⟨_, At.stakes hc rfl⟩) ?_
      · show update s.jobs request.jobId ((s.jobs request.jobId).map _) = _
        rw [hrecord]
        rfl
      · rw [show Server.jobs { s with running := none } request.jobId = some record from hrecord]
        exact .dispatched record hstate
  | flight i a f e hcall hflight =>
      exact h₀.flight haw₀ ⟨hrouted.numbered, hrouted.asked, hrouted.about⟩
        ⟨rfl, fun _ _ _ _ _ heq => absurd heq (by simp), hlooks.waiting, hlooks.serving⟩ hcall hflight

/-- Whoever looks again before it writes finds PREPARED behind the header. -/
theorem looksAgain_rechecks {a : ServerAction σ n} (h : looksAgain cfg prog s a s') :
    rechecks s a s' := h.header

/-- The run lemma. -/
theorem reach_lifeCycle (h : (serverSystem n cfg prog).Reach (looksAgain cfg prog) s) :
    s.LifeCycle := by
  refine h.invariant' ?_ fun s a s' hr hs hok hstep => ?_
  · intro _ hx
    obtain ⟨_, _, rfl⟩ := hx
    refine ⟨fun _ _ hjob => absurd hjob (by simp [started]), fun c jobId hc => ?_, fun c jobId hc => ?_,
      fun i c command jobId hserves => ?_, fun _ _ _ hr => absurd hr (by simp [started])⟩
    · exact absurd hc (not_stakes_of_none rfl)
    · exact absurd hc (not_stakes_of_none rfl)
    · obtain ⟨k, tag, out, howner⟩ := hserves
      exact absurd howner (by simp [started, Flight.started, FifoLock.free])
  · exact LifeCycle.next hs
      (reach_oneRun (hr.mono fun _ _ _ _ hok _ => looksAgain_rechecks hok))
      (reach_awaited hr) (reach_routed hr) hok hstep

/-- Over a run whoever goes on with a job looks again, a final state stays. -/
theorem path_final {record : JobRecord} (h : (serverSystem n cfg prog).Reach (looksAgain cfg prog) s)
    (hpath : (serverSystem n cfg prog).PathWhen (looksAgain cfg prog) s s')
    (hrecord : s.jobs jobId = some record) (hfinal : record.state.final = true) :
    ∃ record', s'.jobs jobId = some record' ∧ record'.state = record.state := by
  induction hpath with
  | refl => exact ⟨record, hrecord, rfl⟩
  | tail hbefore hstep ih =>
      obtain ⟨a, hok, hnext⟩ := hstep
      obtain ⟨record', hrecord', hstate⟩ := ih
      have hreach := h.path hbefore
      have hone := reach_oneRun (hreach.mono fun _ _ _ _ hok _ => looksAgain_rechecks hok)
      have hturn := (reach_lifeCycle hreach).turn hone hok hnext jobId
      rw [hrecord'] at hturn
      obtain ⟨record'', hrecord'', hkept⟩ := hturn.final (by rw [hstate]; exact hfinal)
      exact ⟨record'', hrecord'', hkept.trans hstate⟩

/-- **The life cycle of a job**, in every run in which whoever goes on with a job finds its
record as it left it: DONE and ERROR are final, a job that is DONE has no error, and one that
is in ERROR has no result. -/
theorem job_life_cycle (h : (serverSystem n cfg prog).Reach (looksAgain cfg prog) s) :
    (∀ s' jobId record, (serverSystem n cfg prog).PathWhen (looksAgain cfg prog) s s' →
      s.jobs jobId = some record → record.state = .done ∨ record.state = .error →
      ∃ record', s'.jobs jobId = some record' ∧ record'.state = record.state) ∧
    ∀ jobId record, s.jobs jobId = some record →
      (record.state = .done → record.error = none) ∧ (record.state = .error → record.result = none) := by
  refine ⟨fun s' jobId record hpath hrecord hfinal => ?_, fun jobId record hrecord => ?_⟩
  · refine path_final h hpath hrecord ?_
    rcases hfinal with hstate | hstate <;> rw [hstate] <;> rfl
  · have hcoherent := (reach_lifeCycle h).coherent jobId record hrecord
    unfold JobRecord.Coherent at hcoherent
    refine ⟨fun hstate => ?_, fun hstate => ?_⟩
    · rw [hstate] at hcoherent
      exact hcoherent
    · rw [hstate] at hcoherent
      exact hcoherent

/-! ### A job that is left alone, and two that are not

A run in which everyone looks again, up to DONE; and two runs from the source's own gaps, in which
a final record is written once more.
-/

/-- The push whose body is in finds its job RECEIVING. -/
def bodyFresh (s : Server κ n) : Bool :=
  match s.running with
  | some (c, .bodyRead) =>
      match s.handlers c with
      | some ⟨.body _ request _, none⟩ =>
          (s.jobs request.jobId).any fun record => record.state = .receiving
      | _ => true
  | _ => true

/-- A step that goes on with no job but one that is as it was left, as a test: nobody's turn
comes, and no flight loses its child. -/
def goesOnAlone (cfg : CoordSettings) (prog : ChildProgram κ σ) (s : Server κ n)
    (a : ServerAction σ n) : Bool :=
  !s.stale && s.bodyFresh &&
    match a with
    | .flight i b =>
        ((s.flights i).handsOver b).isNone &&
          ((s.flights i).next cfg prog b).all fun r => r.2.loss.isNone
    | _ => true

theorem goesOnAlone_looksAgain {a : ServerAction σ n} (h : s.goesOnAlone cfg prog a = true) :
    looksAgain cfg prog s a s' := by
  unfold goesOnAlone at h
  rw [Bool.and_eq_true, Bool.and_eq_true] at h
  obtain ⟨⟨hstale, hbody⟩, hflight⟩ := h
  refine ⟨by simpa using hstale, ?_, ?_, ?_⟩
  · intro c i request received layout hr hc _
    have hc : s.handlers c = some ⟨.body i request received, none⟩ := hc
    unfold bodyFresh at hbody
    simp only [hr, hc] at hbody
    obtain ⟨record, hrecord, hstate⟩ := (Option.any_eq_true _ _).mp hbody
    exact ⟨record, hrecord, of_decide_eq_true hstate⟩
  · intro i b command jobId ha hhands
    subst ha
    simp only [hhands, Option.isNone_some, Bool.false_and] at hflight
    exact absurd hflight (by simp)
  · intro i b f e c command jobId ha hnext hloss
    subst ha
    simp only [hnext, Option.all_some, Bool.and_eq_true] at hflight
    exact absurd (Option.isNone_iff_eq_none.mp hflight.2) hloss

/-- A job that is DONE has no error. -/
theorem job_life_cycle_done :
    ∃ (s : Server Unit 0) (record : JobRecord), s.jobs "job" = some record ∧
      record.state = .done ∧ record.result = some [1] ∧ record.error = none := by
  obtain ⟨s, record, hs, hrecord, hstate, hresult⟩ : ∃ (s : Server Unit 0) (record : JobRecord),
      System.followWhen (goesOnAlone .standard .scripted) (Server.next .standard .scripted)
        benchPushed benchServer = some s ∧ s.jobs "job" = some record ∧ record.state = .done ∧
        record.result = some [1] :=
    ⟨_, _, rfl, rfl, rfl, rfl⟩
  have hreach : (serverSystem 0 .standard .scripted).Reach (looksAgain .standard .scripted) s := by
    refine System.Reach.followWhen (fun _ _ _ h => h) ?_ (.init ⟨1, _, rfl⟩) hs
    intro s a s' hcheck
    exact goesOnAlone_looksAgain hcheck
  exact ⟨s, record, hrecord, hstate, hresult, ((job_life_cycle hreach).2 "job" record hrecord).1 hstate⟩

/-- The flight of the bench is restarted, and brings up a new child. -/
def benchRestarted : List (ServerAction Msg 0) :=
  ([.requestRestart "operator", .resumeBringUp .restart, .runExecutor none, .runExecutor none,
    .resumeBringUp .restart, .boot 1 .hello, .runExecutor none, .resumeBringUp .restart,
    .runExecutor none, .receive 1, .answer 1 .benchPrepared, .runExecutor none,
    .resumeBringUp .restart] : List (FlightAction Msg)).map (.flight benchFlight)

/-- **A final state that does not stay, and a job that is DONE with an error.**  A push that
waited for the lock goes on to a job that is DONE, and it is RECEIVING again; and a job that its
flight's restart failed while its body came in is run all the same. -/
theorem job_life_cycle_broken :
    (∃ s s' : Server Unit 0, ∃ record record',
      (serverSystem 0 .standard .scripted).Reach System.always s ∧
      s.next .standard .scripted (.resume "") = some s' ∧ s.jobs "job" = some record ∧
      record.state = .done ∧ s'.jobs "job" = some record' ∧ record'.state = .receiving) ∧
    ∃ s : Server Unit 0, ∃ record, (serverSystem 0 .standard .scripted).Reach System.always s ∧
      s.jobs "job" = some record ∧ record.state = .done ∧
      record.error = some "coordinator lost during RECEIVING: operator" := by
  constructor
  · obtain ⟨s, s', record, record', hs, hstep, hrecord, hstate, hrecord', hstate'⟩ :
        ∃ (s s' : Server Unit 0) (record record' : JobRecord),
          Server.follow .standard .scripted
            (benchPushed ++ [.takePushLock benchFlight, .chunk 2 16 true]) benchServer = some s ∧
          s.next .standard .scripted (.resume "") = some s' ∧ s.jobs "job" = some record ∧
          record.state = .done ∧ s'.jobs "job" = some record' ∧ record'.state = .receiving :=
      ⟨_, _, _, _, rfl, rfl, rfl, rfl, rfl, rfl⟩
    exact ⟨s, s', record, record', Server.follow_reach hs, hstep, hrecord, hstate, hrecord', hstate'⟩
  · obtain ⟨s, record, hs, hrecord, hstate, herror⟩ : ∃ (s : Server Unit 0) (record : JobRecord),
        Server.follow .standard .scripted (benchReceiving ++ benchRestarted ++
          [.chunk 1 0 true, .resume ""] ++
            answered benchFlight 1 (.ran { tableParquet := [], report := [1] }) "") benchServer =
          some s ∧ s.jobs "job" = some record ∧ record.state = .done ∧
          record.error = some "coordinator lost during RECEIVING: operator" :=
      ⟨_, _, rfl, rfl, rfl, rfl⟩
    exact ⟨s, record, Server.follow_reach hs, hrecord, hstate, herror⟩

end Server

end DonutServer
