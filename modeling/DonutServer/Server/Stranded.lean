/-
No job is left without a task that will finish it.

A record in RECEIVING or COMPUTING is one that some handler is going to write again:
the one that streams its body or waits for its run.  Every way out of a handler but
three writes the record first.  The three are all in the second loop over a push's
body and right after it: the block overflows, the client goes away, or a part's name
is no UTF-8, which is not the exception that is caught there.
-/
import DonutServer.Server.Moves

namespace DonutServer

open Function

variable {κ σ : Type} {n : Nat} {cfg : CoordSettings} {prog : ChildProgram κ σ}

/-- The record waits for a handler to write it again. -/
def JobState.inProgress : JobState → Bool
  | .receiving | .computing => true
  | _ => false

theorem JobRecord.concluded_inProgress (result : Result) (record : JobRecord) :
    (record.concluded result).state.inProgress = false := by
  unfold JobRecord.concluded
  split
  · rfl
  · rfl
  · split <;> rfl

theorem JobRecord.failed_inProgress (reason : String) (record : JobRecord) :
    (record.failed reason).state.inProgress = false := by
  unfold JobRecord.failed
  split
  · rfl
  · rename_i hstate
    rcases hr : record.state with _ | _ | _ | _ | _
    · rfl
    · exact absurd (Or.inl hr) hstate
    · exact absurd (Or.inr hr) hstate
    · rfl
    · rfl

theorem JobRecord.ofPrepare_inProgress (reply : Msg) :
    (JobRecord.ofPrepare reply).state.inProgress = false := by
  unfold JobRecord.ofPrepare
  split <;> rfl

namespace Server

variable {s s' : Server κ n}

/-! ### Owners

A request has a job in hand from the segment that marks its record until its own end.  An owner is
any request that has it in hand, since two pushes of a job may both have it, and either of them
will write the record.
-/

/-- Request `c` has the job in hand. -/
def Owns (s : Server κ n) (c : CallId) (jobId : JobId) : Prop :=
  ∃ progress, s.At c progress ∧ progress.owns = some jobId

/-- **No stranded job**: every record in RECEIVING or COMPUTING has a handler. -/
def NoStranded (s : Server κ n) : Prop :=
  ∀ jobId record, s.jobs jobId = some record → record.state.inProgress = true →
    ∃ c, s.Owns c jobId

theorem At.owns_iff {c : CallId} {progress : Progress n} {jobId : JobId} (h : s.At c progress) :
    s.Owns c jobId ↔ progress.owns = some jobId := by
  constructor
  · intro hc
    obtain ⟨p, hp, howns⟩ := hc
    have heq : progress = p := congrArg Handler.progress (Option.some.inj (h.symm.trans hp))
    rw [heq]
    exact howns
  · intro howns
    exact ⟨progress, h, howns⟩

theorem not_owns_of_none {c : CallId} {jobId : JobId} (h : s.handlers c = none) :
    ¬ s.Owns c jobId := by
  intro hc
  obtain ⟨p, hp, _⟩ := hc
  exact absurd (h.symm.trans hp) (by simp)

/-- A step of request `c` strands nothing if every record it leaves in progress is its own,
or was in progress before and not its own. -/
theorem NoStranded.step {c : CallId} (h : s.NoStranded)
    (hother : ∀ c', c' ≠ c → s'.handlers c' = s.handlers c')
    (hjobs : ∀ jobId record, s'.jobs jobId = some record → record.state.inProgress = true →
      s'.Owns c jobId ∨ ¬ s.Owns c jobId ∧
        ∃ record', s.jobs jobId = some record' ∧ record'.state.inProgress = true) :
    s'.NoStranded := by
  intro jobId record hjob hprogress
  rcases hjobs jobId record hjob hprogress with hown | ⟨hnot, record', hjob', hprogress'⟩
  · exact ⟨c, hown⟩
  · obtain ⟨c', p, hat, howns⟩ := h jobId record' hjob' hprogress'
    have hne : c' ≠ c := by
      intro heq
      subst heq
      exact hnot ⟨p, hat, howns⟩
    exact ⟨c', p, (hother c' hne).trans hat, howns⟩

/-- A request that has no job in hand and writes no record strands nothing. -/
theorem NoStranded.quiet {c : CallId} (h : s.NoStranded)
    (hother : ∀ c', c' ≠ c → s'.handlers c' = s.handlers c') (hjobs : s'.jobs = s.jobs)
    (hnot : ∀ jobId, ¬ s.Owns c jobId) : s'.NoStranded := by
  refine h.step hother fun jobId record hjob hprogress => Or.inr ⟨hnot jobId, record, ?_, hprogress⟩
  rw [← hjobs]
  exact hjob

/-- Writing a record that is no longer in progress strands nothing. -/
theorem NoStranded.settle {c : CallId} {jobId : JobId} {record : Option JobRecord}
    (h : s.NoStranded) (hother : ∀ c', c' ≠ c → s'.handlers c' = s.handlers c')
    (hjobs : s'.jobs = update s.jobs jobId record)
    (hsettled : ∀ r, record = some r → r.state.inProgress = false)
    (hnot : ∀ jobId', jobId' ≠ jobId → ¬ s.Owns c jobId') : s'.NoStranded := by
  refine h.step hother fun jobId' r hjob hprogress => Or.inr ?_
  by_cases hj : jobId' = jobId
  · subst hj
    rw [hjobs, update_self] at hjob
    rw [hsettled r hjob] at hprogress
    exact absurd hprogress (by simp)
  · rw [hjobs, update_of_ne hj] at hjob
    exact ⟨hnot jobId' hj, r, hjob, hprogress⟩

/-- A job that its handler keeps in hand is not stranded. -/
theorem NoStranded.own {c : CallId} {jobId : JobId} {record : Option JobRecord}
    (h : s.NoStranded) (hother : ∀ c', c' ≠ c → s'.handlers c' = s.handlers c')
    (hjobs : s'.jobs = update s.jobs jobId record) (hown : s'.Owns c jobId)
    (hnot : ∀ jobId', jobId' ≠ jobId → ¬ s.Owns c jobId') : s'.NoStranded := by
  refine h.step hother fun jobId' r hjob hprogress => ?_
  by_cases hj : jobId' = jobId
  · exact Or.inl (hj ▸ hown)
  · rw [hjobs, update_of_ne hj] at hjob
    exact Or.inr ⟨hnot jobId' hj, r, hjob, hprogress⟩

/-! ### The three ways out

Each of the three ends a push between its header and its dispatch without touching the record.
They are told from the state and the action alone, so that the condition says nothing of what the
record is afterwards.
-/

/-- The step ends request `c`, which has the job's body in hand, without a word to the
record. -/
inductive Abandons (s : Server κ n) (c : CallId) (jobId : JobId) : ServerAction σ n → Prop
  | overflow (i : FlightId n) (request : PushRequest) (received count : Nat) (last : Bool)
      (hc : s.At c (.body i request received)) (hjob : request.jobId = jobId)
      (hfull : (s.blocks i).length < received + count) : Abandons s c jobId (.chunk c count last)
  | disconnect (i : FlightId n) (request : PushRequest) (received : Nat)
      (hc : s.At c (.body i request received)) (hjob : request.jobId = jobId) :
      Abandons s c jobId (.disconnect c)
  | undecodable (i : FlightId n) (request : PushRequest) (received : Nat) (uuid : JobId)
      (hrun : s.running = some (c, .bodyRead)) (hc : s.At c (.body i request received))
      (hjob : request.jobId = jobId)
      (hparse : parseLayout (slice (s.blocks i) 0 received) = .error .unicodeDecodeError) :
      Abandons s c jobId (.resume uuid)

/-- Runs in which no push is abandoned that is the only one to have its job in hand, while
the record says it is in progress. -/
def abandonsNone (s : Server κ n) (a : ServerAction σ n) (_ : Server κ n) : Prop :=
  ∀ c jobId, s.Abandons c jobId a → ∀ record, s.jobs jobId = some record →
    record.state.inProgress = true → ∃ c', c' ≠ c ∧ s.Owns c' jobId

/-- A push that is abandoned strands its job, unless somebody else has it in hand. -/
theorem NoStranded.abandon {c : CallId} {jobId : JobId} {progress : Progress n} (h : s.NoStranded)
    (hc : s.At c progress) (hown : progress.owns = some jobId)
    (hother : ∀ c', c' ≠ c → s'.handlers c' = s.handlers c') (hjobs : s'.jobs = s.jobs)
    (hended : ∀ p, ¬ s'.At c p) :
    s'.NoStranded ↔ ∀ record, s.jobs jobId = some record → record.state.inProgress = true →
      ∃ c', c' ≠ c ∧ s.Owns c' jobId := by
  constructor
  · intro h' record hjob hprogress
    obtain ⟨c', p, hat, howns⟩ := h' jobId record (by rw [hjobs]; exact hjob) hprogress
    have hne : c' ≠ c := by
      intro heq
      subst heq
      exact hended p hat
    exact ⟨c', hne, p, (hother c' hne).symm.trans hat, howns⟩
  · intro hheld jobId' record hjob hprogress
    rw [hjobs] at hjob
    obtain ⟨c', p, hat, howns⟩ : ∃ c', s.Owns c' jobId' := h jobId' record hjob hprogress
    by_cases hne : c' = c
    · subst hne
      have hj : jobId' = jobId := by
        have := (hc.owns_iff).mp ⟨p, hat, howns⟩
        exact Option.some.inj (this.symm.trans hown)
      subst hj
      obtain ⟨c'', hne, q, hq, hqowns⟩ := hheld record hjob hprogress
      exact ⟨c'', q, (hother c'' hne).trans hq, hqowns⟩
    · exact ⟨c', p, (hother c' hne).trans hat, howns⟩

/-- What an abandoned push leaves: itself ended, and nothing else changed that matters. -/
theorem Abandons.after {c : CallId} {jobId : JobId} {a : ServerAction σ n}
    (h : s.Abandons c jobId a) (hstep : s.next cfg prog a = some s') :
    (∃ progress, s.At c progress ∧ progress.owns = some jobId) ∧
      (∀ c', c' ≠ c → s'.handlers c' = s.handlers c') ∧ s'.jobs = s.jobs ∧ ∀ p, ¬ s'.At c p := by
  have hended : ∀ (i : FlightId n) (progress : Progress n) (reply : Reply n) (t : Server κ n),
      t.handlers = s.handlers → t.jobs = s.jobs → s' = t.endPush c i progress reply →
      (∀ c', c' ≠ c → s'.handlers c' = s.handlers c') ∧ s'.jobs = s.jobs ∧ ∀ p, ¬ s'.At c p := by
    intro i progress reply t hhandlers hjobs heq
    subst heq
    refine ⟨fun c' hne => ?_, hjobs, fun p hp => ?_⟩
    · rw [← hhandlers]
      exact update_of_ne hne _ _
    · have hself : (t.endPush c i progress reply).handlers c = some ⟨progress, some reply⟩ :=
        update_self _ _ _
      exact absurd (hself.symm.trans hp) (by simp)
  cases h with
  | overflow i request received count last hc hjob hfull =>
      refine ⟨⟨_, hc, congrArg some hjob⟩, ?_⟩
      unfold next at hstep
      rcases hrunning : s.running with _ | q
      · rw [hrunning] at hstep
        have hc' : s.handlers c = some ⟨.body i request received, none⟩ := hc
        simp only [chunk, hc'] at hstep
        split at hstep
        · exact hended i _ _ s rfl rfl (Option.some.inj hstep).symm
        · exact absurd hstep (by simp)
      · rw [hrunning] at hstep
        exact absurd hstep (by simp)
  | disconnect i request received hc hjob =>
      refine ⟨⟨_, hc, congrArg some hjob⟩, ?_⟩
      unfold next at hstep
      rcases hrunning : s.running with _ | q
      · rw [hrunning] at hstep
        have hc' : s.handlers c = some ⟨.body i request received, none⟩ := hc
        simp only [Server.disconnect, hc'] at hstep
        exact hended i _ _ s rfl rfl (Option.some.inj hstep).symm
      · rw [hrunning] at hstep
        exact absurd hstep (by simp)
  | undecodable i request received uuid hrun hc hjob hparse =>
      refine ⟨⟨_, hc, congrArg some hjob⟩, ?_⟩
      unfold next at hstep
      rw [hrun] at hstep
      have hc' : s.handlers c = some ⟨.body i request received, none⟩ := hc
      simp only [resume, hc', afterBody, hparse] at hstep
      exact hended i _ _ { s with running := none } rfl rfl (Option.some.inj hstep).symm

/-! ### One step, and every run

A step that abandons nobody keeps an owner for each record in progress: the owner stays, or writes
the record, or the record has just been taken in hand.  Conversely an owner that is gone without a
word leaves the record behind, and then nobody is there to write it, for good unless a loss comes.
-/

theorem noteLoss_inProgress {i : FlightId n} {loss : Option Loss} {jobId : JobId}
    {record : JobRecord} (hjob : (s.noteLoss i loss).jobs jobId = some record)
    (hprogress : record.state.inProgress = true) : s.jobs jobId = some record := by
  unfold noteLoss at hjob
  split at hjob
  · exact hjob
  · simp only [failJobs] at hjob
    split at hjob
    · obtain ⟨record', _, rfl⟩ := Option.map_eq_some_iff.mp hjob
      rw [JobRecord.failed_inProgress] at hprogress
      exact absurd hprogress (by simp)
    · exact hjob

theorem noteLoss_handlers (i : FlightId n) (loss : Option Loss) :
    (s.noteLoss i loss).handlers = s.handlers := by
  unfold noteLoss
  split <;> rfl

/-- The step lemma: nothing but an abandoned push strands a job. -/
theorem NoStranded.next {a : ServerAction σ n} (h : s.NoStranded) (hok : abandonsNone s a s')
    (hstep : s.next cfg prog a = some s') : s'.NoStranded := by
  have hm := next_moves hstep
  generalize hr : s.running = r at hm
  have h₀ : NoStranded { s with running := none } := h
  have hnew : ∀ {c c' : CallId} {v : Option (Handler n)}, c' ≠ c →
      update s.handlers c v c' = s.handlers c' := fun hne => update_of_ne hne _ _
  cases hm with
  | tick => exact h
  | refused c _ _ _ hc | resolve c _ _ _ _ hc | prepare c _ _ _ hc | pushQueued c _ _ hc
  | pushBegun c _ _ hc =>
      exact h₀.quiet (fun _ => hnew) rfl fun _ => not_owns_of_none hc
  | unresolved c _ _ _ _ _ _ hc | turnedDown c _ _ _ _ _ _ _ hc | guarded c _ _ _ _ _ _ hc
  | prepareSubmitted c _ _ _ hc | invalid c _ _ _ hc | unprepared c _ _ _ _ _ _ _ hc
  | uningested c _ _ _ _ _ hc | pushGranted c _ _ _ _ _ hc | chunkHeader c _ _ _ _ _ _ hc
  | headerRefused c _ _ _ _ _ _ hc =>
      refine h₀.quiet (fun _ => hnew) rfl fun _ hown => ?_
      exact absurd (hc.owns_iff.mp hown) (by simp [Progress.owns])
  | prepareFailed c _ jobId _ _ m _ _ hc | prepared c _ jobId _ m _ _ hc
  | preparedSubmitted c _ jobId _ _ m _ hc =>
      refine h₀.settle (fun _ => hnew) rfl ?_ ?_
      · intro record hrecord
        obtain rfl := Option.some.inj hrecord
        exact JobRecord.ofPrepare_inProgress _
      · intro _ _ hown
        exact absurd (hc.owns_iff.mp hown) (by simp [Progress.owns])
  | ingest c jobId _ _ _ _ _ _ hc =>
      refine h₀.own (fun _ => hnew) rfl ⟨_, update_self _ _ _, rfl⟩ ?_
      intro _ _ hown
      rcases hc with ⟨hc, _⟩ | ⟨_, _, hc, _⟩
      · exact not_owns_of_none hc hown
      · exact absurd (hc.owns_iff.mp hown) (by simp [Progress.owns])
  | ingested c _ jobId _ _ _ _ _ _ _ _ hc | pushed c _ _ _ _ _ _ _ _ hc =>
      refine h₀.settle (fun _ => hnew) rfl ?_ ?_
      · intro record hrecord
        obtain ⟨_, _, rfl⟩ := Option.map_eq_some_iff.mp hrecord
        exact JobRecord.concluded_inProgress _ _
      · intro _ hne hown
        exact hne (Option.some.inj (hc.owns_iff.mp hown)).symm
  | overflow c count last i request received progress hp hc hcount hfull =>
      cases hp with
      | header =>
          refine h₀.quiet (fun _ => hnew) rfl fun _ hown => ?_
          exact absurd (hc.owns_iff.mp hown) (by simp [Progress.owns])
      | body =>
          have hab : s.Abandons c request.jobId (.chunk c count last : ServerAction σ n) :=
            .overflow i request received count last hc rfl hfull
          obtain ⟨⟨p, hp, hown⟩, hother, hjobs, hended⟩ := hab.after hstep
          exact (h.abandon hp hown hother hjobs hended).mpr (hok c _ hab)
  | disconnect c i request received progress hp hc =>
      cases hp with
      | header =>
          refine h₀.quiet (fun _ => hnew) rfl fun _ hown => ?_
          exact absurd (hc.owns_iff.mp hown) (by simp [Progress.owns])
      | body =>
          have hab : s.Abandons c request.jobId (.disconnect c : ServerAction σ n) :=
            .disconnect i request received hc rfl
          obtain ⟨⟨p, hp, hown⟩, hother, hjobs, hended⟩ := hab.after hstep
          exact (h.abandon hp hown hother hjobs hended).mpr (hok c _ hab)
  | layoutCrashed c i request received uuid hc hparse =>
      have hab : s.Abandons c request.jobId (.resume uuid : ServerAction σ n) :=
        .undecodable i request received uuid hr hc rfl hparse
      obtain ⟨⟨p, hp, hown⟩, hother, hjobs, hended⟩ := hab.after hstep
      exact (h.abandon hp hown hother hjobs hended).mpr (hok c _ hab)
  | chunkBody c count last i request received _ hc =>
      refine h₀.step (fun _ => hnew) fun jobId record hjob hprogress => ?_
      by_cases hj : jobId = request.jobId
      · exact Or.inl ⟨_, update_self _ _ _, congrArg some hj.symm⟩
      · refine Or.inr ⟨fun hown => ?_, record, hjob, hprogress⟩
        exact hj (Option.some.inj (hc.owns_iff.mp hown)).symm
  | headerAccepted c _ i request received _ _ _ hc =>
      refine h₀.own (fun _ => hnew) rfl ⟨_, update_self _ _ _, rfl⟩ ?_
      intro _ _ hown
      exact absurd (hc.owns_iff.mp hown) (by simp [Progress.owns])
  | layoutRefused c i request received message _ hc =>
      refine h₀.settle (fun _ => hnew) rfl ?_ ?_
      · intro record hrecord
        obtain ⟨_, _, rfl⟩ := Option.map_eq_some_iff.mp hrecord
        rfl
      · intro _ hne hown
        exact hne (Option.some.inj (hc.owns_iff.mp hown)).symm
  | dispatched c i request received layout key _ hc =>
      refine h₀.own (fun _ => hnew) rfl ⟨_, update_self _ _ _, rfl⟩ ?_
      intro _ hne hown
      exact hne (Option.some.inj (hc.owns_iff.mp hown)).symm
  | flight i a f e hcall hflight =>
      intro jobId record hjob hprogress
      have hbefore := noteLoss_inProgress hjob hprogress
      obtain ⟨c, p, hat, howns⟩ := h jobId record hbefore hprogress
      exact ⟨c, p, (congrFun (noteLoss_handlers _ _) c).trans hat, howns⟩

/-- **No stranded job**, in every run that abandons no push which is the only one to have
its job in hand; and a step that does abandon such a push strands its job. -/
theorem no_stranded_job (h : (serverSystem n cfg prog).Reach abandonsNone s) :
    s.NoStranded ∧ ∀ a s', s.next cfg prog a = some s' → (s'.NoStranded ↔ abandonsNone s a s') := by
  have hgood : s.NoStranded := by
    refine h.invariant ?_ fun s a s' hs hok hstep => hs.next hok hstep
    intro _ hc jobId record hjob
    obtain ⟨_, _, rfl⟩ := hc
    exact absurd hjob (by simp [started])
  refine ⟨hgood, fun a s' hstep => ⟨fun h' c jobId hab => ?_, fun hok => hgood.next hok hstep⟩⟩
  obtain ⟨⟨p, hp, hown⟩, hother, hjobs, hended⟩ := hab.after hstep
  exact (hgood.abandon hp hown hother hjobs hended).mp h'

/-! ### A push that is in hand, and one that is abandoned

The runs below are on a server of one flight, whose job is prepared and whose push is past its
header.
-/

/-- A step that abandons nothing, as a test: no client goes away, no block overflows and no
body comes to its end. -/
def keepsInHand (s : Server κ n) : ServerAction σ n → Bool
  | .chunk c count _ =>
      match s.handlers c with
      | some ⟨.body i _ received, none⟩ => received + count ≤ (s.blocks i).length
      | _ => true
  | .disconnect _ => false
  | .resume _ =>
      match s.running with
      | some (_, .bodyRead) => false
      | _ => true
  | _ => true

theorem keepsInHand_abandonsNone {a : ServerAction σ n} (h : s.keepsInHand a = true) :
    abandonsNone s a s' := by
  intro c jobId hab
  cases hab with
  | overflow i request received count last hc hjob hfull =>
      have hc' : s.handlers c = some ⟨.body i request received, none⟩ := hc
      simp only [keepsInHand, hc', decide_eq_true_eq] at h
      exact absurd hfull (Nat.not_lt.mpr h)
  | disconnect => exact absurd h (by simp [keepsInHand])
  | undecodable i request received uuid hrun => exact absurd h (by simp [keepsInHand, hrun])

/-- A blob of no parts. -/
def benchBlob : Bytes := [68, 87, 70, 83, 0, 2, 0, 0, 0, 0, 0, 0, 0, 0, 0, 0]

/-- Job "job" is prepared, and a push of it has got past its header. -/
def benchReceiving : List (ServerAction Msg 0) :=
  preparedJob "job" ++ [.push 1 ⟨"job", benchBlob, none⟩, .chunk 1 16 false, .resume ""]

/-- The flight of a server that has one. -/
def benchFlight : FlightId 0 := 0

/-- The second of two flights. -/
def spareFlight : FlightId 1 := 1

/-- The command it waits for is answered. -/
def benchAnswered (reply : Msg) : List (ServerAction Msg 0) := answered benchFlight 0 reply ""

/-- One flight with a block of 64 bytes. -/
def benchServer : Server Unit 0 := Server.started .scripted 1 fun _ => List.replicate 64 0

/-- A job that is being received has a handler. -/
theorem no_stranded_job_receiving :
    ∃ s : Server Unit 0, (∃ record, s.jobs "job" = some record ∧ record.state = .receiving) ∧
      ∃ c, s.Owns c "job" := by
  let next := fun (s : Server Unit 0) (a : ServerAction Msg 0) =>
    if s.keepsInHand a then s.next .standard .scripted a else none
  obtain ⟨s, hs, hjob⟩ : ∃ s, System.follow next benchReceiving benchServer = some s ∧
      ∃ record, s.jobs "job" = some record ∧ record.state = .receiving :=
    ⟨_, rfl, _, rfl, rfl⟩
  have hnext : ∀ s a s', next s a = some s' →
      (serverSystem 0 .standard .scripted).step s a s' ∧ abandonsNone s a s' := by
    intro s a s' h
    by_cases hkeep : s.keepsInHand a = true
    · have h : s.next .standard .scripted a = some s' := (if_pos hkeep).symm.trans h
      exact ⟨h, keepsInHand_abandonsNone hkeep⟩
    · exact absurd ((if_neg hkeep).symm.trans h) (by simp)
  have hreach := System.Reach.follow hnext benchReceiving (.init ⟨1, _, rfl⟩) hs
  obtain ⟨record, hrecord, hstate⟩ := hjob
  obtain ⟨c, hown⟩ := (no_stranded_job hreach).1 "job" record hrecord (by rw [hstate]; rfl)
  exact ⟨s, ⟨record, hrecord, hstate⟩, c, hown⟩

/-- **A stranded job.**  The client goes away after its header: the record stays in
RECEIVING and no request is left that is not answered. -/
theorem stranded_job :
    ∃ s : Server Unit 0, (serverSystem 0 .standard .scripted).Reach System.always s ∧
      (∃ record, s.jobs "job" = some record ∧ record.state = .receiving) ∧ ¬ s.NoStranded := by
  obtain ⟨s, hs, hjob, hover⟩ : ∃ s : Server Unit 0,
      Server.follow .standard .scripted (benchReceiving ++ [.disconnect 1]) benchServer = some s ∧
      (∃ record, s.jobs "job" = some record ∧ record.state = .receiving) ∧
      ∀ c p, ¬ s.At c p := by
    refine ⟨_, rfl, ⟨_, rfl, rfl⟩, fun c p hc => ?_⟩
    have hlive := congrArg (Option.map fun h => h.reply.isNone) hc
    rcases c with _ | _ | c
    · exact absurd (show some false = some true from hlive) (by simp)
    · exact absurd (show some false = some true from hlive) (by simp)
    · exact absurd (show none = some true from hlive) (by simp)
  refine ⟨s, Server.follow_reach hs, hjob, fun hgood => ?_⟩
  obtain ⟨record, hrecord, hstate⟩ := hjob
  obtain ⟨c, p, hc, _⟩ := hgood "job" record hrecord (by rw [hstate]; rfl)
  exact hover c p hc

end Server

end DonutServer
