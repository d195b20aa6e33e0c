/-
One run per job, where a push looks at its job again once it has a header.

A job is checked to be PREPARED before its push waits for `push_lock` and for the
first bytes of its body, and it leaves PREPARED after both.  In a run where every push
that goes on from its header finds its job still PREPARED there is, for each job, at
most one request that prepares it, streams it or runs it, and nothing is asked of a
flight before the last of these.
-/
import DonutServer.Server.Routing

namespace DonutServer

open Function

variable {κ σ : Type} {n : Nat} {cfg : CoordSettings} {prog : ChildProgram κ σ}

/-! ### What a request has to do with a job

Before a job has a record the request that prepares it is the only one to know its number;
afterwards the record itself says whether anybody has it in hand.  `OneRun` is both at once: at
most one stake, and at most one command, asked for or written.
-/

/-- Its prepare is on its way, its body is coming in, or its command is out. -/
inductive Stake
  | preparing
  | streaming
  | running
  deriving DecidableEq

/-- The job a request will write the record of, and why. -/
def Progress.stake : Progress n → Option (JobId × Stake)
  | .preparing _ jobId _ _ => some (jobId, .preparing)
  | .body _ request _ => some (request.jobId, .streaming)
  | .ingesting _ jobId _ _ _ _ => some (jobId, .running)
  | .dispatched _ request _ _ => some (request.jobId, .running)
  | _ => none

/-- A request with a stake in a job is routed to the job's flight. -/
theorem Progress.stake_about {p : Progress n} {jobId : JobId} {k : Stake}
    (h : p.stake = some (jobId, k)) : ∃ i, p.about = some (i, jobId) := by
  cases p with
  | preparing i | body i | ingesting i | dispatched i =>
      obtain ⟨rfl, _⟩ := Prod.mk.inj (Option.some.inj h)
      exact ⟨i, rfl⟩
  | _ => exact absurd h (by simp [Progress.stake])

namespace Server

variable {s s' : Server κ n} {c c' : CallId} {i : FlightId n} {jobId : JobId} {k : Stake}

/-- Request `c` has stake `k` in the job. -/
def Stakes (s : Server κ n) (c : CallId) (jobId : JobId) (k : Stake) : Prop :=
  ∃ progress, s.At c progress ∧ progress.stake = some (jobId, k)

/-- The job has no record yet, or one that says PREPARED. -/
def Untouched (s : Server κ n) (jobId : JobId) : Prop :=
  ∀ record, s.jobs jobId = some record → record.state = .prepared

/-- A job whose record says PREPARED has not been run, -/
theorem untouched_of_prepared {record : JobRecord} (h : s.jobs jobId = some record)
    (hstate : record.state = .prepared) : s.Untouched jobId := by
  intro r hr
  rw [Option.some.inj (hr.symm.trans h)]
  exact hstate

/-- and neither has one without a record. -/
theorem untouched_of_none (h : s.jobs jobId = none) : s.Untouched jobId := by
  intro r hr
  exact absurd (h.symm.trans hr) (by simp)

/-- One request at a time has a stake in the job, and one command runs it. -/
structure OneRun (s : Server κ n) (jobId : JobId) : Prop where
  once : ∀ i, (s.flights i).asked (Command.runs jobId) ≤ 1
  unsent : s.Untouched jobId ∨ (∃ c, s.Stakes c jobId .streaming) →
    ∀ i, (s.flights i).asked (Command.runs jobId) = 0
  alone : ∀ c c' k k', s.Stakes c jobId k → s.Stakes c' jobId k' → c = c'
  unknown : ∀ c, s.Stakes c jobId .preparing → s.jobs jobId = none
  touched : ∀ c k, s.Stakes c jobId k → k ≠ .preparing → ¬ s.Untouched jobId
  noResult : ∀ record, s.jobs jobId = some record →
    record.state = .prepared ∨ (∃ c k, s.Stakes c jobId k) → record.result = none

/-- Only the flights, the records and the requests are looked at. -/
theorem OneRun.congr (h : s.OneRun jobId)
    (hsame : (s'.flights, s'.jobs, s'.handlers) = (s.flights, s.jobs, s.handlers)) :
    s'.OneRun jobId := by
  simp only [Prod.mk.injEq] at hsame
  obtain ⟨hflights, hjobs, hhandlers⟩ := hsame
  constructor <;>
    simp only [Untouched, Stakes, At, hflights, hjobs, hhandlers]
  exacts [h.once, h.unsent, h.alone, h.unknown, h.touched, h.noResult]

/-! ### Stakes over a step

A step is that of one request, so a stake that is new is its own.  The lemmas are named for what
the request does with the job: it leaves it alone, draws its number, makes its record, takes it in
hand, sends its command, or writes it for the last time.
-/

/-- A request's stake is the one of the point it has reached. -/
theorem At.stakes {progress : Progress n} (hat : s.At c progress)
    (h : progress.stake = some (jobId, k)) : s.Stakes c jobId k := ⟨progress, hat, h⟩

/-- A request nobody has heard of has none. -/
theorem not_stakes_of_none (h : s.handlers c = none) : ¬ s.Stakes c jobId k := by
  intro hc
  obtain ⟨p, hp, _⟩ := hc
  exact absurd (h.symm.trans hp) (by simp)

/-- Whoever has a stake after a step of `c` had it before, or is `c`. -/
theorem Stakes.before {handler : Handler n} (h : s'.Stakes c' jobId k)
    (hhandlers : s'.handlers = update s.handlers c (some handler)) :
    c' = c ∧ handler.reply = none ∧ handler.progress.stake = some (jobId, k) ∨
      c' ≠ c ∧ s.Stakes c' jobId k := by
  obtain ⟨p, hp, hstake⟩ := h
  have hp : s'.handlers c' = some ⟨p, none⟩ := hp
  rw [hhandlers] at hp
  by_cases hne : c' = c
  · subst hne
    rw [update_self] at hp
    obtain rfl := Option.some.inj hp
    exact Or.inl ⟨rfl, rfl, hstake⟩
  · rw [update_of_ne hne] at hp
    exact Or.inr ⟨hne, p, hp, hstake⟩

/-- A job that a request has a stake in has its route. -/
theorem Stakes.routed (hrouted : s.Routed) (h : s.Stakes c jobId k) : ∃ i, s.byJob jobId = some i := by
  obtain ⟨p, hp, hstake⟩ := h
  obtain ⟨i, habout⟩ := Progress.stake_about hstake
  exact ⟨i, hrouted.about c p i jobId hp habout⟩

/-- The job is left to those who had a stake in it, and is not made PREPARED again. -/
theorem OneRun.fade (h : s.OneRun jobId)
    (hasked : ∀ i, (s'.flights i).asked (Command.runs jobId) ≤
      (s.flights i).asked (Command.runs jobId))
    (hstakes : ∀ c k, s'.Stakes c jobId k → s.Stakes c jobId k)
    (hnone : s'.jobs jobId = none ↔ s.jobs jobId = none)
    (hprepared : ∀ record', s'.jobs jobId = some record' →
      record'.state = .prepared ∨ (∃ c k, s'.Stakes c jobId k) →
      ∃ record, s.jobs jobId = some record ∧ record'.result = record.result ∧
        (record'.state = .prepared → record.state = .prepared)) : s'.OneRun jobId := by
  have huntouched : s'.Untouched jobId → s.Untouched jobId := by
    intro hun record hjob
    cases hjob' : s'.jobs jobId with
    | none => exact absurd (hnone.mp hjob') (by rw [hjob]; simp)
    | some record' =>
        obtain ⟨r, hr, _, hstate⟩ := hprepared record' hjob' (Or.inl (hun record' hjob'))
        rw [Option.some.inj (hjob.symm.trans hr)]
        exact hstate (hun record' hjob')
  refine ⟨fun i => Nat.le_trans (hasked i) (h.once i), fun hun i => ?_, ?_, ?_, ?_, ?_⟩
  · have hzero := h.unsent (hun.imp huntouched fun ⟨c, hc⟩ => ⟨c, hstakes c _ hc⟩) i
    have hle := hasked i
    omega
  · exact fun c c' k k' hc hc' => h.alone c c' k k' (hstakes c k hc) (hstakes c' k' hc')
  · exact fun c hc => hnone.mpr (h.unknown c (hstakes c _ hc))
  · exact fun c k hc hk hun => h.touched c k (hstakes c k hc) hk (huntouched hun)
  · intro record' hjob' hwhy
    obtain ⟨record, hjob, hresult, hstate⟩ := hprepared record' hjob' hwhy
    rw [hresult]
    exact h.noResult record hjob (hwhy.imp hstate fun ⟨c, k, hc⟩ => ⟨c, k, hstakes c k hc⟩)

/-- A request that gains no stake in the job, writes nothing of it and sends nothing. -/
theorem OneRun.keep {handler : Handler n} (h : s.OneRun jobId)
    (hasked : ∀ i, (s'.flights i).asked (Command.runs jobId) ≤
      (s.flights i).asked (Command.runs jobId))
    (hjob : s'.jobs jobId = s.jobs jobId)
    (hhandlers : s'.handlers = update s.handlers c (some handler))
    (hself : handler.reply = none → ∀ k, handler.progress.stake = some (jobId, k) →
      s.Stakes c jobId k) : s'.OneRun jobId := by
  refine h.fade hasked (fun c' k hc' => ?_) (by rw [hjob]) fun record hrecord _ => ?_
  · rcases hc'.before hhandlers with ⟨rfl, hreply, hstake⟩ | ⟨_, hbefore⟩
    · exact hself hreply k hstake
    · exact hbefore
  · exact ⟨record, hjob.symm.trans hrecord, rfl, id⟩

/-- The one request with a stake in the job writes its record for the last time. -/
theorem OneRun.conclude {handler : Handler n} {g : JobRecord → JobRecord} (h : s.OneRun jobId)
    (hc : s.Stakes c jobId k)
    (hasked : ∀ i, (s'.flights i).asked (Command.runs jobId) ≤
      (s.flights i).asked (Command.runs jobId))
    (hjob : s'.jobs jobId = (s.jobs jobId).map g)
    (hover : ∀ record, (g record).state ≠ .prepared)
    (hhandlers : s'.handlers = update s.handlers c (some handler))
    (hreply : handler.reply ≠ none) : s'.OneRun jobId := by
  have hfree : ∀ c' k', ¬ s'.Stakes c' jobId k' := by
    intro c' k' hc'
    rcases hc'.before hhandlers with ⟨_, hnone, _⟩ | ⟨hne, hbefore⟩
    · exact hreply hnone
    · exact hne (h.alone c' c k' k hbefore hc)
  refine h.fade hasked (fun c' k' hc' => absurd hc' (hfree c' k')) (by rw [hjob]; simp) ?_
  intro record' hrecord' hx
  rcases hx with hprepared | ⟨c', k', hc'⟩
  · rw [hjob] at hrecord'
    obtain ⟨record, _, rfl⟩ := Option.map_eq_some_iff.mp hrecord'
    exact absurd hprepared (hover record)
  · exact absurd hc' (hfree c' k')

/-- The request takes a PREPARED job in hand. -/
theorem OneRun.take {handler : Handler n} {g : JobRecord → JobRecord} {record : JobRecord}
    (h : s.OneRun jobId) (hrecord : s.jobs jobId = some record) (hstate : record.state = .prepared)
    (hasked : ∀ i, (s'.flights i).asked (Command.runs jobId) ≤
      if k = .running then (s.flights i).asked (Command.runs jobId) + 1
      else (s.flights i).asked (Command.runs jobId))
    (hjob : s'.jobs jobId = some (g record))
    (hg : (g record).state ≠ .prepared ∧ (g record).result = record.result)
    (hhandlers : s'.handlers = update s.handlers c (some handler))
    (hself : handler.progress.stake = some (jobId, k)) (hk : k ≠ .preparing) :
    s'.OneRun jobId := by
  have huntouched : s.Untouched jobId := untouched_of_prepared hrecord hstate
  have htouched : ¬ s'.Untouched jobId := fun hun => hg.1 (hun _ hjob)
  have hzero := h.unsent (Or.inl huntouched)
  have honly : ∀ c' k', s'.Stakes c' jobId k' → c' = c ∧ k' = k := by
    intro c' k' hc'
    rcases hc'.before hhandlers with ⟨hc', _, hstake⟩ | ⟨_, hbefore⟩
    · exact ⟨hc', (congrArg Prod.snd (Option.some.inj (hself.symm.trans hstake))).symm⟩
    · by_cases hprep : k' = .preparing
      · subst hprep
        exact absurd (h.unknown c' hbefore) (by rw [hrecord]; simp)
      · exact absurd huntouched (h.touched c' k' hbefore hprep)
  refine ⟨fun i => ?_, fun hun i => ?_, ?_, ?_, ?_, ?_⟩
  · have hle := hasked i
    rw [hzero i] at hle
    split at hle <;> omega
  · rcases hun with hun | ⟨c', hc'⟩
    · exact absurd hun htouched
    · obtain ⟨_, rfl⟩ := honly c' _ hc'
      have hle := hasked i
      rw [hzero i] at hle
      exact Nat.le_zero.mp hle
  · exact fun c₁ c₂ k₁ k₂ h₁ h₂ => (honly c₁ k₁ h₁).1.trans (honly c₂ k₂ h₂).1.symm
  · exact fun c' hc' => absurd (honly c' _ hc').2.symm hk
  · exact fun _ _ _ _ => htouched
  · intro record' hrecord' _
    rw [← Option.some.inj (hjob.symm.trans hrecord'), hg.2]
    exact h.noResult record hrecord (Or.inl hstate)

/-- The request that streams the job sends its command. -/
theorem OneRun.dispatch {handler : Handler n} {g : JobRecord → JobRecord} (h : s.OneRun jobId)
    (hc : s.Stakes c jobId .streaming)
    (hasked : ∀ i, (s'.flights i).asked (Command.runs jobId) ≤
      (s.flights i).asked (Command.runs jobId) + 1)
    (hjob : s'.jobs jobId = (s.jobs jobId).map g)
    (hg : ∀ record, (g record).state ≠ .prepared ∧ (g record).result = record.result)
    (hhandlers : s'.handlers = update s.handlers c (some handler))
    (hself : handler.progress.stake = some (jobId, .running)) : s'.OneRun jobId := by
  have honly : ∀ c' k', s'.Stakes c' jobId k' → c' = c ∧ k' = .running := by
    intro c' k' hc'
    rcases hc'.before hhandlers with ⟨hc', _, hstake⟩ | ⟨hne, hbefore⟩
    · exact ⟨hc', (congrArg Prod.snd (Option.some.inj (hself.symm.trans hstake))).symm⟩
    · exact absurd (h.alone c' c k' _ hbefore hc) hne
  obtain ⟨record, hrecord⟩ : ∃ record, s.jobs jobId = some record := by
    by_contra hno
    refine h.touched c _ hc (by simp) fun r hr => absurd ⟨r, hr⟩ hno
  have hrecord' : s'.jobs jobId = some (g record) := by rw [hjob, hrecord]; rfl
  have htouched : ¬ s'.Untouched jobId := fun hun => (hg record).1 (hun _ hrecord')
  refine ⟨fun i => ?_, fun hun i => ?_, ?_, ?_, ?_, ?_⟩
  · have hzero := h.unsent (Or.inr ⟨c, hc⟩) i
    have hle := hasked i
    omega
  · rcases hun with hun | ⟨c', hc'⟩
    · exact absurd hun htouched
    · exact absurd (honly c' _ hc').2 (by simp)
  · exact fun c₁ c₂ k₁ k₂ h₁ h₂ => (honly c₁ k₁ h₁).1.trans (honly c₂ k₂ h₂).1.symm
  · exact fun c' hc' => absurd (honly c' _ hc').2 (by simp)
  · exact fun _ _ _ _ => htouched
  · intro r hr _
    rw [← Option.some.inj (hrecord'.symm.trans hr), (hg record).2]
    exact h.noResult record hrecord (Or.inr ⟨c, _, hc⟩)

/-- The request that prepares the job gives it its record. -/
theorem OneRun.create {handler : Handler n} {record : JobRecord} (h : s.OneRun jobId)
    (hc : s.Stakes c jobId .preparing)
    (hasked : ∀ i, (s'.flights i).asked (Command.runs jobId) ≤
      (s.flights i).asked (Command.runs jobId))
    (hjob : s'.jobs jobId = some record) (hresult : record.result = none)
    (hhandlers : s'.handlers = update s.handlers c (some handler))
    (hself : handler.reply = none → handler.progress.stake = none) : s'.OneRun jobId := by
  have hnone := h.unknown c hc
  have huntouched : s.Untouched jobId := untouched_of_none hnone
  have hfree : ∀ c' k', ¬ s'.Stakes c' jobId k' := by
    intro c' k' hc'
    rcases hc'.before hhandlers with ⟨_, hreply, hstake⟩ | ⟨hne, hbefore⟩
    · exact absurd ((hself hreply).symm.trans hstake) (by simp)
    · exact hne (h.alone c' c k' _ hbefore hc)
  refine ⟨fun i => Nat.le_trans (hasked i) (h.once i), fun _ i => ?_, ?_, ?_, ?_, ?_⟩
  · have hzero := h.unsent (Or.inl huntouched) i
    have hle := hasked i
    omega
  · exact fun c₁ _ k₁ _ h₁ => absurd h₁ (hfree c₁ k₁)
  · exact fun c' hc' => absurd hc' (hfree c' _)
  · exact fun c' k' hc' => absurd hc' (hfree c' k')
  · intro r hr _
    rw [← Option.some.inj (hjob.symm.trans hr)]
    exact hresult

/-- A prepare begins, under an id that was never drawn. -/
theorem OneRun.draw {handler : Handler n} (h : s.OneRun jobId) (hrouted : s.Routed)
    (hroute : s.byJob jobId = none) (hnone : s.jobs jobId = none)
    (hasked : ∀ i, (s'.flights i).asked (Command.runs jobId) ≤
      (s.flights i).asked (Command.runs jobId))
    (hjob : s'.jobs jobId = s.jobs jobId)
    (hhandlers : s'.handlers = update s.handlers c (some handler))
    (hself : handler.progress.stake = some (jobId, .preparing)) : s'.OneRun jobId := by
  have hnone' : s'.jobs jobId = none := hjob.trans hnone
  have honly : ∀ c' k', s'.Stakes c' jobId k' → c' = c ∧ k' = .preparing := by
    intro c' k' hc'
    rcases hc'.before hhandlers with ⟨hc', _, hstake⟩ | ⟨_, hbefore⟩
    · exact ⟨hc', (congrArg Prod.snd (Option.some.inj (hself.symm.trans hstake))).symm⟩
    · obtain ⟨i, hi⟩ := hbefore.routed hrouted
      exact absurd (hroute.symm.trans hi) (by simp)
  have huntouched : s.Untouched jobId := untouched_of_none hnone
  refine ⟨fun i => Nat.le_trans (hasked i) (h.once i), fun _ i => ?_, ?_, ?_, ?_, ?_⟩
  · have hzero := h.unsent (Or.inl huntouched) i
    have hle := hasked i
    omega
  · exact fun c₁ c₂ k₁ k₂ h₁ h₂ => (honly c₁ k₁ h₁).1.trans (honly c₂ k₂ h₂).1.symm
  · exact fun _ _ => hnone'
  · exact fun c' k' hc' hk => absurd (honly c' k' hc').2 hk
  · exact fun r hr => absurd (hnone'.symm.trans hr) (by simp)

/-! ### What is asked of a flight

Commands are counted on the side of the flights, where they may wait, be written, or be lost.  What
a request sends adds one to that count, and nothing else does.
-/

/-- A command that is sent is asked for once, on one flight, -/
theorem sendCommand_asked {p : Command → Bool} (command : Command)
    (hn : ∀ i, (s.flights i).Numbered) (j : FlightId n) :
    ((s.sendCommand i c command).flights j).asked p ≤
      (s.flights j).asked p + if p command = true then 1 else 0 := by
  by_cases hj : j = i
  · subst hj
    rw [show (s.sendCommand j c command).flights j = ((s.flights j).call c command).1 from
      update_self _ _ _]
    exact (Flight.call_asked _ (hn j)).2
  · rw [show (s.sendCommand i c command).flights j = s.flights j from update_of_ne hj _ _]
    exact Nat.le_add_right _ _

/-- and where it is of another kind nothing is asked for. -/
theorem sendCommand_asked_of_not {p : Command → Bool} {command : Command}
    (hn : ∀ i, (s.flights i).Numbered) (hp : p command = false) (j : FlightId n) :
    ((s.sendCommand i c command).flights j).asked p ≤ (s.flights j).asked p := by
  have hle := sendCommand_asked (p := p) (c := c) (i := i) command hn j
  rw [hp] at hle
  simpa using hle

/-- A loss fails a record, or leaves it alone. -/
theorem noteLoss_jobs (i : FlightId n) (loss : Option Loss) (jobId : JobId) :
    (s.noteLoss i loss).jobs jobId = s.jobs jobId ∨
      ∃ reason, (s.noteLoss i loss).jobs jobId = (s.jobs jobId).map (JobRecord.failed reason) := by
  cases loss with
  | none => exact Or.inl rfl
  | some loss =>
      by_cases hroute : s.byJob jobId = some i
      · exact Or.inr ⟨loss.reason, if_pos hroute⟩
      · exact Or.inl (if_neg hroute)

/-- A record that is failed is PREPARED just when it was so before, -/
theorem JobRecord.failed_state (reason : String) (record : JobRecord) :
    (record.failed reason).state = .prepared ↔ record.state = .prepared := by
  unfold JobRecord.failed
  split
  · rename_i hstate
    rcases hstate with hstate | hstate <;> simp [hstate]
  · rfl

/-- and its result is what it was. -/
theorem JobRecord.failed_result (reason : String) (record : JobRecord) :
    (record.failed reason).result = record.result := by
  unfold JobRecord.failed
  split <;> rfl

/-- A run that has ended is not PREPARED again. -/
theorem JobRecord.concluded_state (result : Result) (record : JobRecord) :
    (record.concluded result).state ≠ .prepared := by
  unfold JobRecord.concluded
  split
  · simp
  · simp
  · split <;> simp

/-- A prepare leaves no result. -/
theorem JobRecord.ofPrepare_result (reply : Msg) : (JobRecord.ofPrepare reply).result = none := by
  unfold JobRecord.ofPrepare
  split <;> rfl

/-! ### The condition, one step, and every run

The one segment that takes a job in hand without looking at the record is the one behind a push's
header.  The condition is what that segment could have asked.
-/

/-- The push that is being run is past its header, and its job has left PREPARED since it
was checked. -/
def stale (s : Server κ n) : Bool :=
  match s.running with
  | some (c, .headerRead _) =>
      match s.handlers c with
      | some ⟨.header i request received, none⟩ =>
          match checkHeader (n := n) received (slice (s.blocks i) 0 headerSize) with
          | .ok _ => !(s.jobs request.jobId).any fun record => record.state = .prepared
          | .error _ => false
      | _ => false
  | _ => false

/-- Runs in which no push goes on from its header to a job that has left PREPARED. -/
def rechecks (s : Server κ n) (_ : ServerAction σ n) (_ : Server κ n) : Prop := s.stale = false

theorem fresh_of_not_stale {last : Bool} {request : PushRequest} {received : Nat}
    {header : HeaderInfo} (h : s.stale = false) (hr : s.running = some (c, .headerRead last))
    (hc : s.At c (.header i request received))
    (hcheck : checkHeader (n := n) received (slice (s.blocks i) 0 headerSize) = .ok header) :
    ∃ record, s.jobs request.jobId = some record ∧ record.state = .prepared := by
  have hc : s.handlers c = some ⟨.header i request received, none⟩ := hc
  unfold stale at h
  simp only [hr, hc, hcheck] at h
  rcases hjob : s.jobs request.jobId with _ | record
  · rw [hjob] at h
    exact absurd h (by simp)
  · rw [hjob] at h
    exact ⟨record, rfl, by simpa using h⟩

/-- The step lemma. -/
theorem OneRun.next {a : ServerAction σ n} (h : ∀ jobId, s.OneRun jobId) (hrouted : s.Routed)
    (hfresh : s.stale = false) (hstep : s.next cfg prog a = some s') (jobId : JobId) :
    s'.OneRun jobId := by
  have hm := next_moves hstep
  generalize hr : s.running = r at hm
  have h₀ : OneRun { s with running := none } jobId := (h jobId).congr rfl
  have hn := hrouted.numbered
  have hsame : ∀ i, (s.flights i).asked (Command.runs jobId) ≤
      (s.flights i).asked (Command.runs jobId) := fun _ => Nat.le_refl _
  cases hm with
  | tick => exact h₀.congr rfl
  | guarded c => exact h₀.keep hsame rfl rfl fun _ _ hk => absurd hk (by simp [Progress.stake])
  | refused c | unresolved c | turnedDown c | invalid c | unprepared c | uningested c | overflow c
  | disconnect c | headerRefused c | layoutCrashed c =>
      exact h₀.keep hsame rfl rfl fun hreply => absurd hreply (by simp)
  | pushQueued c | pushBegun c | pushGranted c | chunkHeader c =>
      exact h₀.keep hsame rfl rfl fun _ _ hk => absurd hk (by simp [Progress.stake])
  | chunkBody c _ _ _ _ _ _ hc => exact h₀.keep hsame rfl rfl fun _ _ hk => hc.stakes hk
  | resolve c =>
      exact h₀.keep (sendCommand_asked_of_not hn rfl) rfl rfl fun _ _ hk =>
        absurd hk (by simp [Progress.stake])
  | prepare c i command uuid _ hroute hjob | prepareSubmitted c i sub uuid _ hroute hjob =>
      by_cases hj : jobId = uuid
      · subst hj
        exact h₀.draw ⟨hn, hrouted.asked, hrouted.about⟩ hroute hjob
          (sendCommand_asked_of_not hn rfl) rfl rfl rfl
      · refine h₀.keep (sendCommand_asked_of_not hn rfl) rfl rfl fun _ _ hk => ?_
        exact absurd (congrArg Prod.fst (Option.some.inj hk)).symm hj
  | prepareFailed c _ job _ _ r _ _ hc | prepared c _ job _ r _ _ hc =>
      by_cases hj : jobId = job
      · subst hj
        exact h₀.create (hc.stakes rfl) hsame (update_self _ _ _) (JobRecord.ofPrepare_result _) rfl
          fun hreply => absurd hreply (by simp)
      · exact h₀.keep hsame (update_of_ne hj _ _) rfl fun hreply => absurd hreply (by simp)
  | preparedSubmitted c _ job _ _ r _ hc =>
      by_cases hj : jobId = job
      · subst hj
        exact h₀.create (hc.stakes rfl) hsame (update_self _ _ _) (JobRecord.ofPrepare_result _) rfl
          fun _ => rfl
      · exact h₀.keep hsame (update_of_ne hj _ _) rfl fun _ _ hk =>
          absurd hk (by simp [Progress.stake])
  | ingest c job directory numWorkers record sub _ _ _ hjob hstate =>
      by_cases hj : jobId = job
      · subst hj
        refine h₀.take (k := .running) (g := fun r => { r with state := .computing }) hjob hstate
          (fun j => ?_) ?_ ⟨by simp, rfl⟩ rfl rfl (by simp)
        · refine Nat.le_trans (sendCommand_asked _ hn j) ?_
          rw [if_pos rfl]
          exact Nat.add_le_add_left (by split <;> simp) _
        · show update s.jobs jobId ((s.jobs jobId).map _) jobId = _
          rw [update_self, hjob]
          rfl
      · refine h₀.keep (sendCommand_asked_of_not hn ?_) (update_of_ne hj _ _) rfl fun _ _ hk => ?_
        · exact decide_eq_false (Ne.symm hj)
        · exact absurd (congrArg Prod.fst (Option.some.inj hk)).symm hj
  | ingested c _ job _ _ _ _ result _ _ _ hc =>
      by_cases hj : jobId = job
      · subst hj
        exact h₀.conclude (hc.stakes rfl) hsame (update_self _ _ _)
          (JobRecord.concluded_state result) rfl (by simp)
      · exact h₀.keep hsame (update_of_ne hj _ _) rfl fun hreply => absurd hreply (by simp)
  | pushed c _ request _ _ result _ _ _ hc =>
      by_cases hj : jobId = request.jobId
      · subst hj
        exact h₀.conclude (hc.stakes rfl) hsame (update_self _ _ _)
          (JobRecord.concluded_state result) rfl (by simp)
      · exact h₀.keep hsame (update_of_ne hj _ _) rfl fun hreply => absurd hreply (by simp)
  | layoutRefused c _ request _ message _ hc =>
      by_cases hj : jobId = request.jobId
      · subst hj
        exact h₀.conclude (g := fun record => { record with state := .error, error := some message })
          (hc.stakes rfl) hsame (update_self _ _ _) (fun _ => by simp) rfl (by simp)
      · exact h₀.keep hsame (update_of_ne hj _ _) rfl fun hreply => absurd hreply (by simp)
  | headerAccepted c last i request received header _ _ hc hcheck =>
      obtain ⟨record, hjob, hstate⟩ := fresh_of_not_stale hfresh hr hc hcheck
      by_cases hj : jobId = request.jobId
      · subst hj
        refine h₀.take (k := .streaming) (g := fun r => { r with state := .receiving }) hjob hstate
          (fun j => ?_) ?_ ⟨by simp, rfl⟩ rfl rfl (by simp)
        · rw [if_neg (by simp)]
          exact hsame j
        · show update s.jobs request.jobId ((s.jobs request.jobId).map _) request.jobId = _
          rw [update_self, hjob]
          rfl
      · refine h₀.keep hsame (update_of_ne hj _ _) rfl fun _ _ hk => ?_
        exact absurd (congrArg Prod.fst (Option.some.inj hk)).symm hj
  | dispatched c i request received layout key _ hc =>
      by_cases hj : jobId = request.jobId
      · subst hj
        refine h₀.dispatch (g := fun record => { record with state := .computing })
          (hc.stakes rfl) (fun j => ?_) (update_self _ _ _) (fun _ => ⟨by simp, rfl⟩) rfl rfl
        exact Nat.le_trans (sendCommand_asked _ hn j) (Nat.add_le_add_left (by split <;> simp) _)
      · refine h₀.keep (sendCommand_asked_of_not hn ?_) (update_of_ne hj _ _) rfl fun _ _ hk => ?_
        · exact decide_eq_false (Ne.symm hj)
        · exact absurd (congrArg Prod.fst (Option.some.inj hk)).symm hj
  | flight i a f e hcall hflight =>
      have hhandlers := noteLoss_handlers (s := { s with running := none }) i e.loss
      refine h₀.fade (fun k => ?_) (fun c k hc => ?_) ?_ fun record' hrecord' _ => ?_
      · show (update s.flights i f k).asked _ ≤ _
        by_cases hk : k = i
        · subst hk
          rw [update_self]
          exact (Flight.next_noMore (fun _ => rfl) hcall hflight).asked (hn k)
        · rw [update_of_ne hk]
      · obtain ⟨p, hp, hstake⟩ := hc
        exact ⟨p, (congrFun hhandlers c).symm.trans hp, hstake⟩
      · rcases noteLoss_jobs (s := { s with running := none }) i e.loss jobId with hjobs | ⟨reason, hjobs⟩
        · exact iff_of_eq (congrArg (· = none) hjobs)
        · exact (iff_of_eq (congrArg (· = none) hjobs)).trans Option.map_eq_none_iff
      · rcases noteLoss_jobs (s := { s with running := none }) i e.loss jobId with hjobs | ⟨reason, hjobs⟩
        · exact ⟨record', hjobs.symm.trans hrecord', rfl, id⟩
        · obtain ⟨record, hrecord, rfl⟩ := Option.map_eq_some_iff.mp (hjobs.symm.trans hrecord')
          exact ⟨record, hrecord, JobRecord.failed_result _ _, (JobRecord.failed_state _ _).mp⟩

/-- It is so in every run whose pushes still find PREPARED behind their headers. -/
theorem reach_oneRun (h : (serverSystem n cfg prog).Reach rechecks s) (jobId : JobId) :
    s.OneRun jobId := by
  refine h.invariant' (P := fun s => ∀ jobId, s.OneRun jobId) ?_ ?_ jobId
  · intro _ hx jobId
    obtain ⟨_, _, rfl⟩ := hx
    refine ⟨fun i => ?_, fun _ i => Flight.started_asked, ?_, ?_, ?_, ?_⟩
    · show (Flight.started prog).asked _ ≤ 1
      rw [Flight.started_asked]
      exact Nat.zero_le 1
    · exact fun c _ _ _ hc => absurd hc (not_stakes_of_none rfl)
    · exact fun c hc => absurd hc (not_stakes_of_none rfl)
    · exact fun c k hc => absurd hc (not_stakes_of_none rfl)
    · exact fun record hrecord => absurd hrecord (by simp [Server.started])
  · intro s a s' hreach hs hok hstep jobId
    exact OneRun.next hs (reach_routed (hreach.mono fun _ _ _ _ _ _ => trivial)) hok hstep jobId

/-- A step leaves alone the result of a job that nobody has a stake in. -/
theorem OneRun.next_result {a : ServerAction σ n} {record : JobRecord} (h : s.OneRun jobId)
    (hfresh : s.stale = false) (hstep : s.next cfg prog a = some s')
    (hjob : s.jobs jobId = some record) (hresult : record.result ≠ none) :
    ∃ record', s'.jobs jobId = some record' ∧ record'.result = record.result := by
  have hm := next_moves hstep
  generalize hr : s.running = r at hm
  have hfree : ∀ c k, ¬ s.Stakes c jobId k :=
    fun c k hc => hresult (h.noResult record hjob (Or.inr ⟨c, k, hc⟩))
  have htouched : record.state ≠ .prepared :=
    fun hstate => hresult (h.noResult record hjob (Or.inl hstate))
  have hother : ∀ {job : JobId} {v : Option JobRecord}, job ≠ jobId →
      update s.jobs job v jobId = some record := fun hj => (update_of_ne hj.symm _ _).trans hjob
  cases hm with
  | prepareFailed c _ job _ _ _ _ _ hc | prepared c _ job _ _ _ _ hc
  | preparedSubmitted c _ job _ _ _ _ hc | ingested c _ job _ _ _ _ _ _ _ _ hc =>
      refine ⟨record, hother ?_, rfl⟩
      intro heq
      subst heq
      exact hfree c _ (hc.stakes rfl)
  | layoutRefused c _ request _ _ _ hc | dispatched c _ request _ _ _ _ hc
  | pushed c _ request _ _ _ _ _ _ hc =>
      refine ⟨record, hother ?_, rfl⟩
      intro heq
      subst heq
      exact hfree c _ (hc.stakes rfl)
  | ingest _ job _ _ record' _ _ _ _ hjob' hstate =>
      refine ⟨record, hother ?_, rfl⟩
      intro heq
      subst heq
      rw [Option.some.inj (hjob'.symm.trans hjob)] at hstate
      exact htouched hstate
  | headerAccepted c _ _ request _ _ _ _ hc hcheck =>
      obtain ⟨record', hjob', hstate⟩ := fresh_of_not_stale hfresh hr hc hcheck
      refine ⟨record, hother ?_, rfl⟩
      intro heq
      subst heq
      rw [Option.some.inj (hjob'.symm.trans hjob)] at hstate
      exact htouched hstate
  | flight i a f e =>
      rcases noteLoss_jobs (s := { s with running := none }) i e.loss jobId with hjobs | ⟨reason, hjobs⟩
      · exact ⟨record, hjobs.trans hjob, rfl⟩
      · exact ⟨_, hjobs.trans (congrArg _ hjob), JobRecord.failed_result _ _⟩
  | _ => exact ⟨record, hjob, rfl⟩

/-- **One run per job**, in every run in which no push goes on from its header to a job
that has left PREPARED: no two commands that run a job are written, and a result that is
there stays. -/
theorem one_run_per_job (h : (serverSystem n cfg prog).Reach rechecks s) :
    (∀ jobId i i' tag tag' w w', (s.flights i).written tag = some w →
      (s.flights i').written tag' = some w' → w.2.2.runs jobId = true → w'.2.2.runs jobId = true →
      (i, tag) = (i', tag')) ∧
    ∀ a s' jobId record, rechecks s a s' → s.next cfg prog a = some s' →
      s.jobs jobId = some record → record.result ≠ none →
      ∃ record', s'.jobs jobId = some record' ∧ record'.result = record.result := by
  refine ⟨?_, fun a s' jobId record hok hstep hjob hresult => ?_⟩
  · intro jobId i i' tag tag' w w' hw hw' hruns hruns'
    have hrouted := reach_routed (h.mono fun _ _ _ _ _ _ => trivial)
    have hwrote : (s.flights i).wrote (Command.runs jobId) tag = true := by
      unfold Flight.wrote
      rw [hw]
      exact hruns
    have hwrote' : (s.flights i').wrote (Command.runs jobId) tag' = true := by
      unfold Flight.wrote
      rw [hw']
      exact hruns'
    have hi := hrouted.asked i jobId (Flight.asked_pos (hrouted.numbered i) hwrote)
    have hi' := hrouted.asked i' jobId (Flight.asked_pos (hrouted.numbered i') hwrote')
    obtain rfl := Option.some.inj (hi.symm.trans hi')
    rw [Flight.wrote_unique (hrouted.numbered i) ((reach_oneRun h jobId).once i) hwrote hwrote']
  · exact (reach_oneRun h jobId).next_result hok hstep hjob hresult

/-- Job "job" has been pushed by request 1 and is done. -/
def benchPushed : List (ServerAction Msg 0) :=
  preparedJob "job" ++ [.push 1 ⟨"job", benchBlob, none⟩, .push 2 ⟨"job", benchBlob, none⟩,
    .chunk 1 16 true, .resume "", .resume ""] ++ benchAnswered (.ran { tableParquet := [], report := [1] })

/-- A push that was let through before the job was done goes on, and is dispatched. -/
def benchPushedAgain : List (ServerAction Msg 0) :=
  [.takePushLock benchFlight, .chunk 2 16 true, .resume "", .resume "",
    .flight benchFlight (.runExecutor none)]

/-- A job that is done keeps its result. -/
theorem one_run_per_job_pushed :
    ∃ s s' : Server Unit 0, s.next .standard .scripted (.takePushLock 0) = some s' ∧
      ∃ record record', s.jobs "job" = some record ∧ record.result = some [1] ∧
        s'.jobs "job" = some record' ∧ record'.result = record.result := by
  obtain ⟨s, s', record, hs, hfresh, hstep, hjob, hresult⟩ :
      ∃ (s s' : Server Unit 0) (record : JobRecord),
        System.followWhen (fun s _ => !s.stale) (Server.next .standard .scripted) benchPushed
          benchServer = some s ∧ s.stale = false ∧
        s.next .standard .scripted (.takePushLock 0) = some s' ∧ s.jobs "job" = some record ∧
        record.result = some [1] :=
    ⟨_, _, _, rfl, rfl, rfl, rfl, rfl⟩
  have hreach : (serverSystem 0 .standard .scripted).Reach rechecks s :=
    System.Reach.followWhen (M := serverSystem 0 .standard .scripted)
      (fun _ _ _ h => h) (fun s _ _ h => show s.stale = false by simpa using h) (.init ⟨1, _, rfl⟩) hs
  obtain ⟨record', hjob', hkept⟩ := (one_run_per_job hreach).2 _ s' "job" record hfresh hstep hjob
    (by rw [hresult]; simp)
  exact ⟨s, s', hstep, record, record', hjob, hresult, hjob', hkept⟩

/-- **Two runs of a job.**  Its second push is let through while it is PREPARED, waits for
the lock, and is sent to the flight when the job is done. -/
theorem two_runs_of_a_job :
    ∃ s : Server Unit 0, (serverSystem 0 .standard .scripted).Reach System.always s ∧
      ∃ tag tag' w w', (s.flights 0).written tag = some w ∧ (s.flights 0).written tag' = some w' ∧
        w.2.2.runs "job" = true ∧ w'.2.2.runs "job" = true ∧ tag ≠ tag' := by
  obtain ⟨s, hs, hwritten⟩ : ∃ s : Server Unit 0,
      Server.follow .standard .scripted (benchPushed ++ benchPushedAgain) benchServer = some s ∧
      ∃ w w', (s.flights 0).written 1 = some w ∧ (s.flights 0).written 2 = some w' ∧
        w.2.2.runs "job" = true ∧ w'.2.2.runs "job" = true :=
    ⟨_, rfl, _, _, rfl, rfl, rfl, rfl⟩
  obtain ⟨w, w', hw, hw', hruns, hruns'⟩ := hwritten
  exact ⟨s, Server.follow_reach hs, 1, 2, w, w', hw, hw', hruns, hruns', by decide⟩

end Server

end DonutServer
