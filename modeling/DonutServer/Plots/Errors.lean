/-
What the queue remembers of the jobs it could not draw.

`Logged` keeps what the table does not: every end that a job came to, in the order of the
steps.  An entry of the table is the last thing that became of its job, and a job that waits
again has none.  The table holds no more than `PLOT_ERROR_CAP` entries, so it forgets; but it
forgets no failure before that many other jobs have failed after it.

A failed job that is asked for again is on its way to another end, and its error goes when it is
accepted.  So an error is told of a job for as long as nothing newer is known of it.
-/
import DonutServer.Lib.Remembered
import DonutServer.Plots.Conserve

namespace DonutServer

open Function

/-- The jobs that failed, in a log of ends. -/
def failing (log : List (JobId × PlotOutcome)) : Finset JobId :=
  (log.filterMap fun e =>
    match e.2 with
    | .drawn => none
    | .failed _ => some e.1).toFinset

/-- The last of a job's ends in a log. -/
def LastEnd (log : List (JobId × PlotOutcome)) (jobId : JobId) (outcome : PlotOutcome) : Prop :=
  ∃ before after, log = before ++ (jobId, outcome) :: after ∧ jobId ∉ after.map Prod.fst

namespace PlotPool

/-- What has become of the ticket a job was given last. -/
def fate (p : PlotPool) (jobId : JobId) : Option (List PlotOutcome) :=
  (p.tickets jobId).head?.map Ticket.outcomes

/-- The job a step ends, and how. -/
def endedBy (p : PlotPool) (a : PlotAction) (p' : PlotPool) : Option (JobId × PlotOutcome) :=
  match a with
  | .sent i _ => do
      let jobId ← (p.loops i).holds
      let outcome ← (← p'.fate jobId).head?
      pure (jobId, outcome)
  | _ => none

/-- The runs of a queue, with the ends that its jobs came to. -/
inductive Logged : List (JobId × PlotOutcome) → PlotPool → Prop
  | started (flights : Nat) : Logged [] (started flights)
  | step {log : List (JobId × PlotOutcome)} {p p' : PlotPool} {a : PlotAction} :
      Logged log p → p.next a = some p' → Logged (log ++ (p.endedBy a p').toList) p'

variable {p p' : PlotPool} {i : Nat} {jobId : JobId} {log : List (JobId × PlotOutcome)}
  {a : PlotAction} {outcome : PlotOutcome}

theorem Logged.reach (h : Logged log p) : plotSystem.Reach System.always p := by
  induction h with
  | started flights => exact .init ⟨flights, rfl⟩
  | step _ hstep ih => exact .step ih trivial hstep

/-- Every run leaves a log. -/
theorem exists_logged (h : plotSystem.Reach System.always p) : ∃ log, Logged log p := by
  induction h with
  | init hinit =>
      obtain ⟨flights, rfl⟩ := hinit
      exact ⟨[], .started flights⟩
  | step _ _ hstep ih =>
      obtain ⟨log, hlog⟩ := ih
      exact ⟨_, hlog.step hstep⟩

/-! ### What has become of a job

The job's last ticket says what became of it: nothing yet, or its one outcome.  Each step of the
queue is looked at for what it does to that and to the table of errors, and there are only three
things that it can do to both together.
-/

/-- A job that waits, or has a command out, has come to no end yet. -/
theorem Good.fate_open (h : p.Good) :
    p.fate jobId = some [] ↔ jobId ∈ p.queue.stack ∨ ∃ i, p.Sends i jobId := by
  have hacc := h.accounts jobId
  unfold fate
  constructor
  · intro hopen
    by_contra hidle
    obtain ⟨t, ht, houtcomes⟩ := Option.map_eq_some_iff.mp hopen
    obtain ⟨rest, htickets⟩ : ∃ rest, p.tickets jobId = t :: rest :=
      ⟨_, (List.cons_head?_tail ht).symm⟩
    obtain ⟨outcome, hover⟩ := (hacc.last t rest htickets).2 hidle
    exact absurd (houtcomes.symm.trans hover) (by simp)
  · intro hlive
    obtain ⟨t, rest, htickets⟩ := List.exists_cons_of_ne_nil (hacc.known hlive)
    rw [htickets]
    exact congrArg some ((hacc.last t rest htickets).1 hlive)

/-- Where no ticket is touched, everything is as it was. -/
theorem fate_same (h : p'.tickets = p.tickets) : p'.fate = p.fate := by
  unfold fate
  rw [h]

/-- A note that leaves the outcomes as they are. -/
theorem fate_note {g : Ticket → Ticket} (hg : ∀ t, (g t).outcomes = t.outcomes)
    (h : p'.tickets = update p.tickets jobId (Ticket.last g (p.tickets jobId))) :
    p'.fate = p.fate := by
  funext other
  unfold fate
  rw [h]
  by_cases hother : other = jobId
  · rw [hother, update_self]
    cases p.tickets jobId with
    | nil => rfl
    | cons t rest => exact congrArg some (hg t)
  · rw [update_of_ne hother]

/-- Taking a job off the stack ends nothing, -/
theorem fate_turn : (p.turn i).fate = p.fate := by
  unfold turn PlotQueue.take
  rcases PlotQueue.takeFrom p.queue.queued p.queue.stack with ⟨_ | job, rest⟩
  · exact fate_same rfl
  · exact fate_note (g := fun t => { t with sends := t.sends + 1 }) (fun _ => rfl) rfl

/-- and forgets no error. -/
theorem errors_turn : (p.turn i).queue.errors = p.queue.errors := by
  unfold turn PlotQueue.take
  rcases PlotQueue.takeFrom p.queue.queued p.queue.stack with ⟨_ | job, rest⟩ <;> rfl

/-- A job that is settled has this outcome. -/
theorem fate_settle (hopen : p.fate jobId = some []) :
    (p.settle jobId outcome).fate = update p.fate jobId (some [outcome]) := by
  funext other
  show ((update p.tickets jobId (Ticket.last _ (p.tickets jobId))) other).head?.map _ = _
  by_cases hother : other = jobId
  · subst hother
    rw [update_self, update_self]
    obtain ⟨t, ht, houtcomes⟩ := Option.map_eq_some_iff.mp hopen
    rw [← List.cons_head?_tail ht]
    show some (outcome :: t.outcomes) = _
    rw [houtcomes]
  · rw [update_of_ne hother, update_of_ne hother]
    rfl

/-- What a step makes of the table of errors and of the jobs: nothing; or a job is waiting
again, and its error goes; or a job ends, and is remembered if it failed. -/
inductive ErrorStep (p p' : PlotPool) : Option (JobId × PlotOutcome) → Prop
  | quiet (herrors : p'.queue.errors = p.queue.errors) (hfate : p'.fate = p.fate) :
      ErrorStep p p' none
  | pending (jobId : JobId) (herrors : p'.queue.errors = p.queue.errors.pop jobId)
      (hfate : p'.fate = update p.fate jobId (some [])) : ErrorStep p p' none
  | ended (jobId : JobId) (outcome : PlotOutcome)
      (herrors : p'.queue.errors =
        match outcome with
        | .drawn => p.queue.errors
        | .failed message => p.queue.errors.remember plotErrorCap jobId message)
      (hopen : p.fate jobId = some []) (hfate : p'.fate = update p.fate jobId (some [outcome])) :
      ErrorStep p p' (some (jobId, outcome))

/-- A job that is settled is remembered if it failed, and that is all. -/
theorem errors_settle : (p.settle jobId outcome).queue.errors =
    match outcome with
    | .drawn => p.queue.errors
    | .failed message => p.queue.errors.remember plotErrorCap jobId message := by
  cases outcome <;> rfl

/-- A job that found no child fails with a message, or waits again. -/
theorem errors_noChild {kind reason : String} (hopen : p.fate jobId = some []) :
    (∃ message, (p.noChild i jobId kind reason).queue.errors =
        p.queue.errors.remember plotErrorCap jobId message ∧
      (p.noChild i jobId kind reason).fate = update p.fate jobId (some [.failed message])) ∨
    (p.noChild i jobId kind reason).queue.errors = p.queue.errors.pop jobId ∧
      (p.noChild i jobId kind reason).fate = p.fate := by
  unfold PlotPool.noChild
  dsimp only
  split
  · exact Or.inl ⟨_, rfl, fate_settle hopen⟩
  · exact Or.inr ⟨rfl, fate_same rfl⟩

/-- What a command's end makes of its job is read off the job's ticket. -/
theorem endedBy_sent {result : PlotResult} (hsends : p.Sends i jobId) :
    p.endedBy (.sent i result) p' =
      ((p'.fate jobId).bind List.head?).map fun outcome => (jobId, outcome) := by
  show ((p.loops i).holds.bind fun jobId => (p'.fate jobId).bind fun outcomes =>
    outcomes.head?.bind fun outcome => some (jobId, outcome)) = _
  rw [show p.loops i = .sending jobId from hsends]
  show ((p'.fate jobId).bind fun outcomes => outcomes.head?.bind fun outcome =>
    some (jobId, outcome)) = _
  rcases p'.fate jobId with _ | ⟨_ | _⟩ <;> rfl

/-- The step lemma for the errors. -/
theorem Good.errorStep (h : p.Good) (hstep : p.next a = some p') :
    p.ErrorStep p' (p.endedBy a p') := by
  have hm := next_moves hstep
  cases hm with
  | enqueue jobId =>
      rcases enqueue_cases p jobId with hrefused | ⟨hflights, hfresh⟩
      · rw [hrefused]
        exact .quiet rfl rfl
      · rw [enqueue_accepted hflights hfresh]
        refine .pending jobId rfl ?_
        funext other
        show ((update p.tickets jobId _) other).head?.map _ = _
        by_cases hother : other = jobId
        · rw [hother, update_self, update_self]
          rfl
        · rw [update_of_ne hother, update_of_ne hother]
          rfl
  | close => exact .quiet rfl rfl
  | turn i a hopen hi hidle ha =>
      have hnone : p.endedBy a (p.turn i) = none := by
        rcases ha with rfl | rfl <;> rfl
      rw [hnone]
      exact .quiet errors_turn fate_turn
  | settled i jobId outcome result hopen hi hsends =>
      have hfate := h.fate_open.mpr (Or.inr ⟨i, hsends⟩)
      have hafter : (((p.settle jobId outcome).leave i).turn i).fate =
          update p.fate jobId (some [outcome]) := fate_turn.trans (fate_settle hfate)
      rw [endedBy_sent hsends, hafter, update_self]
      exact .ended jobId outcome (errors_turn.trans errors_settle) hfate hafter
  | noChild i jobId kind reason hopen hi hsends =>
      have hfate := h.fate_open.mpr (Or.inr ⟨i, hsends⟩)
      rw [endedBy_sent hsends]
      rcases errors_noChild hfate with ⟨message, herrors, hafter⟩ | ⟨herrors, hafter⟩
      · rw [hafter, update_self]
        exact .ended jobId (.failed message) herrors hfate hafter
      · rw [hafter, hfate]
        refine .pending jobId herrors (hafter.trans ?_)
        rw [← hfate, update_eq_self]
  | paused i jobId hopen hi hpausing =>
      exact .quiet errors_turn fate_turn
  | cancelled i hclosing hi hlive =>
      unfold PlotPool.cancelled
      split <;> exact .quiet rfl (fate_same rfl)

end PlotPool

/-! ### Ends and failures

The log has all the ends, so what the table should hold can be read off it: the failures that few
enough other jobs have failed after, and of each job only its last end.
-/

section Ends

variable {log after : List (JobId × PlotOutcome)} {jobId job : JobId} {message : String}
  {outcome last : PlotOutcome}

/-- Nobody failed in an empty log, -/
@[simp] theorem failing_nil : failing [] = ∅ := rfl

/-- a job that is drawn adds nobody, -/
theorem failing_drawn : failing (log ++ [(job, .drawn)]) = failing log := by
  unfold failing
  rw [List.filterMap_append]
  exact congrArg List.toFinset (List.append_nil _)

/-- and one that fails adds itself. -/
theorem failing_failed : failing (log ++ [(job, .failed message)]) = insert job (failing log) := by
  unfold failing
  rw [List.filterMap_append, List.toFinset_append]
  show _ ∪ {job} = _
  rw [Finset.union_comm, Finset.insert_eq]

/-- Another job's end leaves a job's last one what it was. -/
theorem LastEnd.concat (h : LastEnd log jobId outcome) (hne : jobId ≠ job) :
    LastEnd (log ++ [(job, last)]) jobId outcome := by
  obtain ⟨before, after, rfl, hafter⟩ := h
  refine ⟨before, after ++ [(job, last)], by simp, ?_⟩
  rw [List.map_append, List.mem_append, not_or]
  exact ⟨hafter, fun hmem => hne (List.mem_singleton.mp hmem)⟩

/-- The last end of a log is its job's last one. -/
theorem lastEnd_concat : LastEnd (log ++ [(job, last)]) job last :=
  ⟨log, [], rfl, List.not_mem_nil⟩

end Ends

namespace PlotPool

variable {p p' : PlotPool} {jobId : JobId} {log : List (JobId × PlotOutcome)}

/-- The table holds no more than it may, nothing but the truth, and every failure that few
enough jobs have failed after. -/
structure ErrorsTrue (log : List (JobId × PlotOutcome)) (p : PlotPool) : Prop where
  bounded : p.queue.errors.size ≤ plotErrorCap
  told : ∀ jobId message, (jobId, message) ∈ p.queue.errors.entries →
    LastEnd log jobId (.failed message) ∧ p.fate jobId ≠ some []
  kept : ∀ before jobId message after, log = before ++ (jobId, .failed message) :: after →
    jobId ∉ after.map Prod.fst → p.fate jobId ≠ some [] → (failing after).card < plotErrorCap →
      p.queue.errors.Behind jobId message (failing after)

/-- A job waits again, and its error goes. -/
theorem ErrorsTrue.pending (h : p.ErrorsTrue log)
    (herrors : p'.queue.errors = p.queue.errors.pop jobId)
    (hfate : p'.fate = update p.fate jobId (some [])) : p'.ErrorsTrue log := by
  have hother : ∀ other, p'.fate other ≠ some [] → other ≠ jobId ∧ p.fate other ≠ some [] := by
    intro other hnot
    rw [hfate] at hnot
    by_cases heq : other = jobId
    · rw [heq, update_self] at hnot
      exact absurd rfl hnot
    · rw [update_of_ne heq] at hnot
      exact ⟨heq, hnot⟩
  refine ⟨?_, fun other message hmem => ?_,
    fun before other message after hlog hafter hnot hcard => ?_⟩
  · rw [herrors]
    exact OrderedDict.size_pop_le.trans h.bounded
  · rw [herrors] at hmem
    obtain ⟨hmem, hne⟩ := OrderedDict.mem_pop.mp hmem
    obtain ⟨hlast, hnot⟩ := h.told other message hmem
    rw [hfate, update_of_ne hne]
    exact ⟨hlast, hnot⟩
  · obtain ⟨hne, hnot⟩ := hother other hnot
    rw [herrors]
    exact (h.kept before other message after hlog hafter hnot hcard).pop hne

/-- A job has come to an end. -/
theorem ErrorsTrue.ended {outcome : PlotOutcome} (h : p.ErrorsTrue log)
    (herrors : p'.queue.errors =
      match outcome with
      | .drawn => p.queue.errors
      | .failed message => p.queue.errors.remember plotErrorCap jobId message)
    (hopen : p.fate jobId = some []) (hfate : p'.fate = update p.fate jobId (some [outcome])) :
    p'.ErrorsTrue (log ++ [(jobId, outcome)]) := by
  have hold : ∀ other message, (other, message) ∈ p.queue.errors.entries →
      LastEnd (log ++ [(jobId, outcome)]) other (.failed message) ∧ p'.fate other ≠ some [] := by
    intro other message hmem
    obtain ⟨hlast, hnot⟩ := h.told other message hmem
    have hne : other ≠ jobId := by
      intro heq
      exact hnot (heq ▸ hopen)
    rw [hfate, update_of_ne hne]
    exact ⟨hlast.concat hne, hnot⟩
  refine ⟨?_, fun other message hmem => ?_,
    fun before other message after hlog hafter hnot hcard => ?_⟩
  · rw [herrors]
    cases outcome with
    | drawn => exact h.bounded
    | failed message => exact OrderedDict.size_evict plotErrorCap _
  · rw [herrors] at hmem
    cases outcome with
    | drawn => exact hold other message hmem
    | failed reason =>
        rcases OrderedDict.mem_remember hmem with heq | ⟨hmem, -⟩
        · obtain ⟨rfl, rfl⟩ := Prod.mk.inj heq
          refine ⟨lastEnd_concat, ?_⟩
          rw [hfate, update_self]
          simp
        · exact hold other message hmem
  · rcases List.eq_nil_or_concat after with rfl | ⟨earlier, e, rfl⟩
    · -- The failure is the one that has just been remembered.
      obtain ⟨-, heq⟩ := List.append_inj' hlog rfl
      obtain ⟨rfl, rfl⟩ := Prod.mk.inj (List.singleton_inj.mp heq)
      rw [herrors]
      exact OrderedDict.behind_remember (by decide)
    · rw [List.concat_eq_append] at hlog hafter hcard ⊢
      rw [← List.cons_append, ← List.append_assoc] at hlog
      obtain ⟨hearlier, heq⟩ := List.append_inj' hlog rfl
      obtain rfl := List.singleton_inj.mp heq
      rw [List.map_append, List.mem_append, not_or] at hafter
      have hne : other ≠ jobId := fun heq => hafter.2 (List.mem_singleton.mpr heq)
      rw [hfate, update_of_ne hne] at hnot
      rw [herrors]
      cases outcome with
      | drawn =>
          rw [failing_drawn] at hcard ⊢
          exact h.kept before other message earlier hearlier hafter.1 hnot hcard
      | failed reason =>
          rw [failing_failed] at hcard ⊢
          have hless : (failing earlier).card < plotErrorCap :=
            (Finset.card_le_card (Finset.subset_insert _ _)).trans_lt hcard
          have hbehind := h.kept before other message earlier hearlier hafter.1 hnot hless
          exact hbehind.remember hne hcard

/-- In every run. -/
theorem Logged.errorsTrue (h : Logged log p) : p.ErrorsTrue log := by
  induction h with
  | started flights =>
      exact ⟨Nat.zero_le _, fun _ _ hmem => absurd hmem List.not_mem_nil,
        fun _ _ _ _ hlog => absurd hlog (by simp)⟩
  | @step log p p' a hlogged hstep ih =>
      have hmoved := (reach_good hlogged.reach).errorStep hstep
      generalize p.endedBy a p' = ended at hmoved
      cases hmoved with
      | quiet herrors hfate =>
          rw [Option.toList_none, List.append_nil]
          refine ⟨?_, ?_, ?_⟩
          · rw [herrors]
            exact ih.bounded
          · rw [herrors, hfate]
            exact ih.told
          · rw [herrors, hfate]
            exact ih.kept
      | pending jobId herrors hfate =>
          rw [Option.toList_none, List.append_nil]
          exact ih.pending herrors hfate
      | ended jobId outcome herrors hopen hfate => exact ih.ended herrors hopen hfate

/-- **What the queue remembers of its failures.**  In every run, with any number of flights: the
table of errors never holds more than `PLOT_ERROR_CAP` jobs; an error it gives is the last thing
that became of its job, which neither waits nor is being drawn; and where a job's last end was a
failure, and it has not been asked for again, its error is there unless `PLOT_ERROR_CAP` other
jobs have failed since. -/
theorem plot_errors_told (h : Logged log p) :
    p.queue.errors.size ≤ plotErrorCap ∧
    (∀ jobId message, p.queue.errors.get? jobId = some message →
      LastEnd log jobId (.failed message) ∧ jobId ∉ p.queue.stack ∧ ∀ i, ¬ p.Sends i jobId) ∧
    ∀ before jobId message after, log = before ++ (jobId, .failed message) :: after →
      jobId ∉ after.map Prod.fst → jobId ∉ p.queue.stack → (∀ i, ¬ p.Sends i jobId) →
        (failing after).card < plotErrorCap → p.queue.errors.get? jobId = some message := by
  have hgood := reach_good h.reach
  have htrue := h.errorsTrue
  refine ⟨htrue.bounded, fun jobId message hget => ?_,
    fun before jobId message after hlog hafter hwaits hsends hcard => ?_⟩
  · obtain ⟨hlast, hnot⟩ := htrue.told jobId message (OrderedDict.mem_of_get? hget)
    refine ⟨hlast, fun hmem => hnot (hgood.fate_open.mpr (Or.inl hmem)), fun i hi => ?_⟩
    exact hnot (hgood.fate_open.mpr (Or.inr ⟨i, hi⟩))
  · refine (htrue.kept before jobId message after hlog hafter (fun hopen => ?_) hcard).get?
    rcases hgood.fate_open.mp hopen with hmem | ⟨i, hi⟩
    · exact hwaits hmem
    · exact hsends i hi

/-- Two jobs that could not be drawn, one after the other. -/
def twoFailures : List (JobId × PlotOutcome) := [("first", .failed "boom"), ("second", .failed "bang")]

/-- The error of the first is still there when the second has failed. -/
theorem plot_errors_told_kept : ∃ p : PlotPool,
    Logged twoFailures p ∧ p.queue.errors.get? "first" = some "boom" := by
  obtain ⟨p, hp, hstack, hloop, hbeyond⟩ : ∃ p : PlotPool, Logged twoFailures p ∧
      p.queue.stack = [] ∧ p.loops 0 = .waiting ∧ ∀ i, i ≠ 0 → p.loops i = .top := by
    have hqueued : Logged [] ((started 1).enqueue "first") :=
      (Logged.started 1).step (a := .enqueue "first") rfl
    have hfailed := (hqueued.step (a := .begin 0) rfl).step (a := .sent 0 (.raised "boom")) rfl
    have hagain := hfailed.step (a := .enqueue "second") rfl
    have hsent := (hagain.step (a := .awake 0) rfl).step (a := .sent 0 (.raised "bang")) rfl
    exact ⟨_, hsent, rfl, rfl, fun i hi =>
      (reach_good hsent.reach).shape.beyond i (Nat.one_le_iff_ne_zero.mpr hi)⟩
  refine ⟨p, hp, ?_⟩
  refine (plot_errors_told hp).2.2 [] "first" "boom" _ rfl (by decide) ?_ (fun i hi => ?_) (by decide)
  · rw [hstack]
    exact List.not_mem_nil
  · by_cases hzero : i = 0
    · subst hzero
      exact absurd (hloop.symm.trans hi) (by simp)
    · exact absurd ((hbeyond i hzero).symm.trans hi) (by simp)

end PlotPool

end DonutServer
