/-
Drawing what was never drawn.

A backfill pushes the jobs that a scan reports, the newest last.  What is pushed later goes on
top of them and nothing gets below, so they come off the stack the newest first.  Which of
them it pushes is for the queue to say, and the queue refuses a job that was given up for as
long as the loop that gave it up still pauses.
-/
import DonutServer.Plots.Loss
import DonutServer.StampFiles

namespace DonutServer

/-! ### The two routes

Both scan the stamp directory first, and look at no more than a number of the newest tables.  The
survey tells what is missing, waiting and being drawn; the backfill queues what is missing, and
tells what it queued.
-/

structure SurveyReply where
  scanned : Nat
  missing : Nat
  queueDepth : Nat

structure BackfillReply where
  scanned : Nat
  missing : Nat
  queued : Nat
  queueDepth : Nat

/-- What a backfill answers, what it queued, in that order, and the pool it leaves. -/
structure Backfill where
  reply : BackfillReply
  queued : List JobId
  pool : PlotPool

/-- `admin_plot_survey`. -/
def PlotQueue.survey (disk : Disk) (limit : Int) (q : PlotQueue) :
    Except HttpException SurveyReply := do
  let (scanned, missing) ← disk.scan (clampJobs limit)
  pure ⟨scanned, missing.length, q.stack.length⟩

namespace PlotPool

/-- Enqueue each of a list in turn, and say which were queued. -/
def enqueueAll : List JobId → PlotPool → List JobId × PlotPool
  | [], p => ([], p)
  | jobId :: rest, p =>
      let r := enqueueAll rest (p.enqueue jobId)
      (if (p.queue.enqueue jobId).2 then jobId :: r.1 else r.1, r.2)

/-- `admin_plot_backfill`. -/
def backfill (disk : Disk) (limit : Int) (p : PlotPool) : Except HttpException Backfill :=
  if p.queue.flights = 0 then
    .error ⟨409, "no plot flights are running; start the server with " ++
      "--num-plot-flights 1 or more"⟩
  else do
    let (scanned, missing) ← disk.scan (clampJobs limit)
    let r := enqueueAll missing.reverse p
    pure ⟨⟨scanned, missing.length, r.1.length, r.2.queue.stack.length⟩, r.1, r.2⟩

/-! ### What is taken

The order in which jobs come off the stack is a matter of what happens later, so it is stated of
every run from there on.  In such a run every command finds a child; otherwise a job is put back,
and may then be passed by another.
-/

/-- The job a step took off the stack. -/
def takenBy (a : PlotAction) (p' : PlotPool) : Option JobId :=
  match a with
  | .begin i | .awake i | .sent i _ | .paused i =>
      match p'.loops i with
      | .sending jobId => some jobId
      | _ => none
  | .enqueue _ | .close | .cancelled _ => none

/-- The runs on from a state in which every command finds a child, with the jobs taken. -/
inductive Draws (start : PlotPool) : List JobId → PlotPool → Prop
  | start : Draws start [] start
  | step {taken : List JobId} {p p' : PlotPool} {a : PlotAction} :
      Draws start taken p → findsChild p a p' → p.next a = some p' →
      Draws start (taken ++ (takenBy a p').toList) p'

/-- Whenever the second job is taken the first was taken before. -/
def Precedes (taken : List JobId) (first second : JobId) : Prop :=
  ∀ before after, taken = before ++ second :: after → first ∈ before

/-- A job that was given up, by a loop that still pauses. -/
def Abandoned (p : PlotPool) (jobId : JobId) : Prop :=
  (∃ i, p.loops i = .pausing jobId) ∧ jobId ∉ p.queue.stack ∧ ∀ i, ¬ p.Sends i jobId

/-- **The right jobs, newest first**: of the jobs examined a backfill queues exactly those that
have no donut plot and neither wait nor are drawn, each once; a survey counts as missing what
the backfill finds missing; and of two jobs queued flights take the newer first, whatever is
enqueued later. -/
structure Backfilled (disk : Disk) (directory : String) (examined : List Candidate)
    (p : PlotPool) (survey : SurveyReply) (r : Backfill) : Prop where
  exactly : ∀ jobId, jobId ∈ r.queued ↔ (∃ c ∈ examined, (ofLex c).2 = jobId) ∧
    disk.hasPlot directory jobId = false ∧ jobId ∉ p.queue.stack ∧ ∀ i, ¬ p.Sends i jobId
  once : r.queued.Nodup
  pushed : r.pool.queue.stack = r.queued.reverse ++ p.queue.stack
  surveyed : survey.missing = r.reply.missing ∧
    r.reply.missing = examined.countP fun c => !disk.hasPlot directory (ofLex c).2
  order : ∀ taken q, Draws r.pool taken q → ∀ newer ∈ examined, ∀ older ∈ examined,
    older < newer → (ofLex newer).2 ∈ r.queued → (ofLex older).2 ∈ r.queued →
      Precedes taken (ofLex newer).2 (ofLex older).2

variable {p p' q : PlotPool} {i : Nat} {jobId first second : JobId} {taken jobs : List JobId}
  {a : PlotAction}

/-! ### What the queue takes

The queue takes a job it knows nothing of.  A job that waits, that is drawn, or that was given up
by a loop which still pauses is known to it; the last is the case that the backfill does not mean
to leave out.
-/

/-- The queue knows nothing of a job that neither waits nor is said to be drawn, -/
theorem stateOf_eq_none : p.queue.stateOf jobId = none ↔
    ¬ (jobId ∈ p.queue.queued ∨ p.queue.isDrawing jobId = true) := by
  unfold PlotQueue.stateOf
  split
  next hdrawing => exact ⟨fun h => absurd h (by simp), fun h => absurd (Or.inr hdrawing) h⟩
  next hdrawing =>
    split
    next hqueued => exact ⟨fun h => absurd h (by simp), fun h => absurd (Or.inl hqueued) h⟩
    next hqueued => exact ⟨fun _ h => h.elim hqueued hdrawing, fun _ => rfl⟩

/-- and takes just those. -/
theorem enqueue_snd (hflights : p.queue.flights ≠ 0) :
    (p.queue.enqueue jobId).2 = true ↔ p.queue.stateOf jobId = none := by
  rw [stateOf_eq_none]
  unfold PlotQueue.enqueue
  rw [if_neg hflights]
  split
  next h => exact ⟨fun hfalse => absurd hfalse (by simp), fun hno => absurd h hno⟩
  next h => exact ⟨fun _ => h, fun _ => rfl⟩

/-- A job that the queue knows nothing of neither waits, nor is drawn, nor was given up just
now. -/
theorem stateOf_idle (hs : p.Shape) : p.queue.stateOf jobId = none ↔
    (jobId ∉ p.queue.stack ∧ ∀ k, ¬ p.Sends k jobId) ∧ ¬ p.Abandoned jobId := by
  rw [stateOf_eq_none, hs.queued, isDrawing_iff hs]
  constructor
  · intro h
    refine ⟨⟨fun hmem => h (Or.inl hmem), fun k hk => h (Or.inr ⟨k, ?_⟩)⟩, fun habandoned => ?_⟩
    · rw [show p.loops k = .sending jobId from hk]
      rfl
    · obtain ⟨⟨k, hk⟩, -⟩ := habandoned
      refine h (Or.inr ⟨k, ?_⟩)
      rw [hk]
      rfl
  · intro h hc
    obtain ⟨⟨hstack, hsends⟩, habandoned⟩ := h
    rcases hc with hmem | ⟨k, hk⟩
    · exact hstack hmem
    · cases hloop : p.loops k with
      | sending other =>
          rw [hloop] at hk
          exact hsends k (hloop.trans (congrArg _ (Option.some.inj hk)))
      | pausing other =>
          rw [hloop] at hk
          exact habandoned ⟨⟨k, hloop.trans (congrArg _ (Option.some.inj hk))⟩, hstack, hsends⟩
      | _ =>
          rw [hloop] at hk
          exact absurd hk (by simp [DrainState.holds])

/-- Queueing a job changes nothing for another. -/
theorem stateOf_enqueue {other : JobId} (hne : other ≠ jobId) :
    (p.enqueue jobId).queue.stateOf other = p.queue.stateOf other := by
  rcases enqueue_cases p jobId with hrefused | ⟨hflights, hfresh⟩
  · rw [hrefused]
  · rw [enqueue_accepted hflights hfresh]
    have hmem : other ∈ insert jobId p.queue.queued ↔ other ∈ p.queue.queued := by
      rw [Finset.mem_insert]
      exact or_iff_right hne
    show (if p.queue.isDrawing other = true then some "drawing"
      else if other ∈ insert jobId p.queue.queued then some "queued" else none) = _
    rw [if_congr hmem rfl rfl]
    rfl

/-- What a list of jobs comes to: those that the queue knows nothing of are pushed. -/
theorem enqueueAll_spec (hp : p.Good) (hflights : p.queue.flights ≠ 0) (hjobs : jobs.Nodup) :
    (enqueueAll jobs p).2.Good ∧
      (enqueueAll jobs p).1 = jobs.filter (fun jobId => p.queue.stateOf jobId = none) ∧
      (enqueueAll jobs p).2.queue.stack = (enqueueAll jobs p).1.reverse ++ p.queue.stack := by
  induction jobs generalizing p with
  | nil => exact ⟨hp, rfl, rfl⟩
  | cons jobId rest ih =>
      obtain ⟨hfirst, hrest⟩ := List.nodup_cons.mp hjobs
      obtain ⟨hgood, hqueued, hstack⟩ := ih hp.enqueue (enqueue_stays.flights ▸ hflights) hrest
      have hsame : rest.filter (fun other => (p.enqueue jobId).queue.stateOf other = none) =
          rest.filter fun other => p.queue.stateOf other = none := by
        refine List.filter_congr fun other hother => ?_
        rw [stateOf_enqueue]
        intro heq
        exact hfirst (heq ▸ hother)
      rw [hsame] at hqueued
      unfold enqueueAll
      refine ⟨hgood, ?_⟩
      dsimp only
      by_cases hidle : p.queue.stateOf jobId = none
      · rw [if_pos ((enqueue_snd hflights).mpr hidle), List.filter_cons, if_pos (decide_eq_true hidle),
          hstack, hqueued, enqueue_accepted hflights (stateOf_eq_none.mp hidle)]
        refine ⟨rfl, ?_⟩
        rw [List.reverse_cons, List.append_assoc]
        rfl
      · have hknown := not_not.mp (mt stateOf_eq_none.mpr hidle)
        rw [if_neg (mt (enqueue_snd hflights).mp hidle), List.filter_cons,
          if_neg (mt of_decide_eq_true hidle)]
        refine ⟨hqueued, ?_⟩
        rw [hstack, enqueue_refused (Or.inr hknown)]

/-! ### What is below another stays there

A stack is changed at its top only.  So of two jobs in it the lower one stays below the upper,
until the upper one is taken; that is the step lemma, and the run lemma is by induction on the
steps.
-/

/-- A loop's turn takes the top of the stack, or finds none and leaves it. -/
theorem turn_stack (hs : p.Shape) :
    (∃ jobId, (p.turn i).loops i = .sending jobId ∧
      p.queue.stack = jobId :: (p.turn i).queue.stack) ∨
    (p.turn i).loops i = .waiting ∧ p.queue.stack = (p.turn i).queue.stack := by
  cases hstack : p.queue.stack with
  | nil =>
      rw [Shape.turn_nil hstack]
      exact Or.inr ⟨Function.update_self .., rfl⟩
  | cons jobId rest =>
      rw [hs.turn_cons hstack]
      exact Or.inl ⟨jobId, Function.update_self .., rfl⟩

/-- A step takes the top of the stack, or puts something on it, or leaves it. -/
def StackStep (p : PlotPool) (a : PlotAction) (p' : PlotPool) : Prop :=
  (∃ jobId, takenBy a p' = some jobId ∧ p.queue.stack = jobId :: p'.queue.stack) ∨
    takenBy a p' = none ∧ p.queue.stack <:+ p'.queue.stack

theorem StackStep.of_turn (hs : q.Shape) (hstack : q.queue.stack = p.queue.stack)
    (ha : a = .begin i ∨ a = .awake i ∨ a = .paused i ∨ ∃ result, a = .sent i result) :
    StackStep p a (q.turn i) := by
  have htaken : takenBy a (q.turn i) = match (q.turn i).loops i with
      | .sending jobId => some jobId
      | _ => none := by
    rcases ha with rfl | rfl | rfl | ⟨result, rfl⟩ <;> rfl
  unfold StackStep
  rw [htaken, ← hstack]
  rcases turn_stack (i := i) hs with ⟨jobId, hloop, htop⟩ | ⟨hloop, hsame⟩
  · rw [hloop]
    exact Or.inl ⟨jobId, rfl, htop⟩
  · rw [hloop, hsame]
    exact Or.inr ⟨rfl, List.suffix_refl _⟩

theorem next_stackStep (h : p.Good) (hok : findsChild p a p') (hstep : p.next a = some p') :
    StackStep p a p' := by
  have hm := next_moves hstep
  cases hm with
  | enqueue jobId =>
      rcases enqueue_cases p jobId with hrefused | ⟨hflights, hfresh⟩
      · rw [hrefused]
        exact Or.inr ⟨rfl, List.suffix_refl _⟩
      · rw [enqueue_accepted hflights hfresh]
        exact Or.inr ⟨rfl, List.suffix_cons jobId _⟩
  | close => exact Or.inr ⟨rfl, List.suffix_refl _⟩
  | turn i a _ _ _ ha => exact .of_turn h.shape rfl (ha.imp_right Or.inl)
  | settled i jobId outcome result hopen hi hsends =>
      refine .of_turn (h.settle_leave hi hsends).shape ?_ (Or.inr (Or.inr (Or.inr ⟨result, rfl⟩)))
      cases outcome <;> rfl
  | noChild i jobId kind reason => exact absurd rfl (hok i kind reason)
  | paused i jobId _ hi hpausing =>
      exact .of_turn (h.leave hi hpausing).shape rfl (Or.inr (Or.inr (Or.inl rfl)))
  | cancelled i =>
      refine Or.inr ⟨rfl, ?_⟩
      unfold PlotPool.cancelled
      split
      · exact List.suffix_cons _ _
      · exact List.suffix_refl _
      · exact List.suffix_refl _

/-- Once the first job is taken, it was taken before whatever comes. -/
theorem Precedes.append (h : Precedes taken first second) (hfirst : first ∈ taken)
    (more : List JobId) : Precedes (taken ++ more) first second := by
  intro before after heq
  rcases List.append_eq_append_iff.mp heq with ⟨between, rfl, -⟩ | ⟨between, rfl, hcut⟩
  · exact List.mem_append_left _ hfirst
  · cases between with
    | nil =>
        rw [List.append_nil] at hfirst
        exact hfirst
    | cons other between =>
        obtain ⟨rfl, -⟩ := List.cons.inj hcut
        exact h before between rfl

/-- A job that is never taken is not taken first. -/
theorem precedes_of_notMem (h : second ∉ taken) : Precedes taken first second := by
  intro before after heq
  refine absurd ?_ h
  rw [heq]
  exact List.mem_append_right _ List.mem_cons_self

/-- The run lemma: the upper of two jobs is taken first. -/
theorem Draws.order {start : PlotPool} (h : Draws start taken p) (hgood : start.Good)
    (hpair : [first, second].Sublist start.queue.stack) :
    p.Good ∧ (first ∈ taken ∧ Precedes taken first second ∨
      [first, second].Sublist p.queue.stack ∧ second ∉ taken) := by
  induction h with
  | start => exact ⟨hgood, Or.inr ⟨hpair, List.not_mem_nil⟩⟩
  | step _ hok hstep ih =>
      obtain ⟨hgood, hbefore⟩ := ih
      refine ⟨hgood.next hstep, ?_⟩
      rcases hbefore with ⟨hfirst, hprecedes⟩ | ⟨hpair, hsecond⟩
      · exact Or.inl ⟨List.mem_append_left _ hfirst, hprecedes.append hfirst _⟩
      rcases next_stackStep hgood hok hstep with ⟨jobId, htaken, htop⟩ | ⟨htaken, hsuffix⟩
      · rw [htaken]
        rw [htop] at hpair
        have hnodup := hgood.shape.nodup
        rw [htop] at hnodup
        cases hpair with
        | cons _ hbelow =>
            -- What was taken lay above both.
            refine Or.inr ⟨hbelow, fun hmem => ?_⟩
            rcases List.mem_append.mp hmem with hmem | hmem
            · exact hsecond hmem
            · refine (List.nodup_cons.mp hnodup).1 ?_
              rw [← List.mem_singleton.mp hmem]
              exact hbelow.subset (List.mem_cons_of_mem _ List.mem_cons_self)
        | cons_cons _ hbelow =>
            -- The other one is still to come.
            refine Or.inl ⟨List.mem_append_right _ List.mem_cons_self, precedes_of_notMem ?_⟩
            intro hmem
            rcases List.mem_append.mp hmem with hmem | hmem
            · exact hsecond hmem
            · refine (List.nodup_cons.mp hnodup).1 ?_
              rw [← List.mem_singleton.mp hmem]
              exact hbelow.subset List.mem_cons_self
      · rw [htaken]
        refine Or.inr ⟨hpair.trans hsuffix.sublist, ?_⟩
        rw [Option.toList_none, List.append_nil]
        exact hsecond

/-! ### A backfill

The list of what is missing comes newest first from the scan, and is pushed from its end; so the
newest is on top when it is done.
-/

variable {disk : Disk} {directory : String} {entries : List DirEntry} {examined : List Candidate}

/-- The jobs examined that have no donut plot. -/
def missingPlots (disk : Disk) (directory : String) (examined : List Candidate) : List JobId :=
  (examined.map fun c => (ofLex c).2).filter fun jobId => !disk.hasPlot directory jobId

theorem mem_missingPlots : jobId ∈ missingPlots disk directory examined ↔
    (∃ c ∈ examined, (ofLex c).2 = jobId) ∧ disk.hasPlot directory jobId = false := by
  unfold missingPlots
  rw [List.mem_filter, List.mem_map, Bool.not_eq_true']

theorem length_missingPlots : (missingPlots disk directory examined).length =
    examined.countP fun c => !disk.hasPlot directory (ofLex c).2 := by
  unfold missingPlots
  rw [← List.countP_eq_length_filter, List.countP_map]
  rfl

/-- The newer of two missing jobs stands before the other. -/
theorem missingPlots_sublist {limit : Nat} {newer older : Candidate}
    (hnewest : Newest entries limit examined) (hnewer : newer ∈ examined) (holder : older ∈ examined)
    (hlt : older < newer) {keep : JobId → Bool}
    (hkeep : ∀ c, c = newer ∨ c = older →
      (ofLex c).2 ∈ (missingPlots disk directory examined).filter keep) :
    [(ofLex newer).2, (ofLex older).2].Sublist
      ((missingPlots disk directory examined).filter keep) := by
  have hpair := (((hnewest.pair_sublist hnewer holder hlt).map fun c => (ofLex c).2).filter
    fun jobId => !disk.hasPlot directory jobId).filter keep
  have hpass : ∀ c, c = newer ∨ c = older →
      (!disk.hasPlot directory (ofLex c).2) = true ∧ keep (ofLex c).2 = true := by
    intro c hc
    obtain ⟨hmem, hk⟩ := List.mem_filter.mp (hkeep c hc)
    exact ⟨(List.mem_filter.mp hmem).2, hk⟩
  obtain ⟨hplot, hk⟩ := hpass newer (Or.inl rfl)
  obtain ⟨hplot', hk'⟩ := hpass older (Or.inr rfl)
  have hboth : ∀ {f : JobId → Bool}, f (ofLex newer).2 = true → f (ofLex older).2 = true →
      [(ofLex newer).2, (ofLex older).2].filter f = [(ofLex newer).2, (ofLex older).2] := by
    intro f h h'
    exact List.filter_eq_self.mpr (List.forall_mem_cons.mpr ⟨h, List.forall_mem_singleton.mpr h'⟩)
  rw [List.map_cons, List.map_singleton, hboth hplot hplot', hboth hk hk'] at hpair
  exact hpair

/-- **A backfill is right, and newest first, just where it examines no job that was given up
and whose loop still pauses.**  What it queues is always what the queue knows nothing of. -/
theorem backfill_right (hp : plotSystem.Reach System.always p) (hflights : p.queue.flights ≠ 0)
    (hset : disk.stampDir = some directory) (hdir : directory ≠ "")
    (hscan : disk.scandir directory = .ok entries) (limit : Int) :
    ∃ examined survey r, Newest entries (clampJobs limit) examined ∧
      p.queue.survey disk limit = .ok survey ∧ p.backfill disk limit = .ok r ∧
      (∀ jobId, jobId ∈ r.queued ↔ (∃ c ∈ examined, (ofLex c).2 = jobId) ∧
        disk.hasPlot directory jobId = false ∧ p.queue.stateOf jobId = none) ∧
      (Backfilled disk directory examined p survey r ↔
        ∀ c ∈ examined, disk.hasPlot directory (ofLex c).2 = false → ¬ p.Abandoned (ofLex c).2) := by
  have hgood := reach_good hp
  obtain ⟨scanned, examined, hnewest, hnodup, hscanned⟩ := scan_eq hset hdir hscan (clampJobs limit)
  set missing := missingPlots disk directory examined with hmissing
  have hjobs : missing.reverse.Nodup := List.nodup_reverse.mpr (hnodup.filter _)
  obtain ⟨hpool, hqueued, hstack⟩ := enqueueAll_spec hgood hflights hjobs
  set all := enqueueAll missing.reverse p
  have hmem : ∀ jobId, jobId ∈ all.1 ↔ (∃ c ∈ examined, (ofLex c).2 = jobId) ∧
      disk.hasPlot directory jobId = false ∧ p.queue.stateOf jobId = none := by
    intro jobId
    rw [hqueued, List.mem_filter, List.mem_reverse, mem_missingPlots, decide_eq_true_eq, and_assoc]
  have hbackfill : p.backfill disk limit =
      .ok ⟨⟨scanned, missing.length, all.1.length, all.2.queue.stack.length⟩, all.1, all.2⟩ := by
    unfold PlotPool.backfill
    rw [if_neg hflights, hscanned]
    rfl
  have hsurvey : p.queue.survey disk limit = .ok ⟨scanned, missing.length, p.queue.stack.length⟩ := by
    unfold PlotQueue.survey
    rw [hscanned]
    rfl
  refine ⟨examined, _, _, hnewest, hsurvey, hbackfill, hmem, fun h c hc hplot habandoned => ?_,
    fun h => ⟨fun jobId => ?_, ?_, hstack, ⟨rfl, length_missingPlots⟩, ?_⟩⟩
  · have hidle := (h.exactly (ofLex c).2).mpr ⟨⟨c, hc, rfl⟩, hplot, habandoned.2⟩
    exact ((stateOf_idle hgood.shape).mp ((hmem _).mp hidle).2.2).2 habandoned
  · show jobId ∈ all.1 ↔ _
    rw [hmem, stateOf_idle hgood.shape]
    constructor
    · intro hjob
      exact ⟨hjob.1, hjob.2.1, hjob.2.2.1⟩
    · intro hjob
      obtain ⟨⟨c, hc, rfl⟩, hplot, hfree⟩ := hjob
      exact ⟨⟨c, hc, rfl⟩, hplot, hfree, h c hc hplot⟩
  · show all.1.Nodup
    rw [hqueued]
    exact hjobs.filter _
  · intro taken q hdraws newer hnewer older holder hlt hnewerQueued holderQueued
    have hreverse : all.1.reverse =
        missing.filter fun jobId => decide (p.queue.stateOf jobId = none) := by
      rw [hqueued, List.filter_reverse, List.reverse_reverse]
    have hpair : [(ofLex newer).2, (ofLex older).2].Sublist all.2.queue.stack := by
      rw [hstack, hreverse]
      refine (missingPlots_sublist hnewest hnewer holder hlt ?_).trans (List.sublist_append_left _ _)
      intro c hc
      rw [← hmissing, ← hreverse, List.mem_reverse]
      rcases hc with rfl | rfl
      · exact hnewerQueued
      · exact holderQueued
    rcases (hdraws.order hpool hpair).2 with ⟨-, hprecedes⟩ | ⟨-, hsecond⟩
    · exact hprecedes
    · exact precedes_of_notMem hsecond

/-- A stamp directory that holds these entries, and no plots. -/
def stampDisk (entries : List DirEntry) (hnames : (entries.map (·.name)).Nodup) : Disk where
  stampDir := some "/stamps"
  scandir directory := if directory = "/stamps" then .ok entries else .error "no such directory"
  pathExists _ := false
  names := by
    intro directory listed h
    split at h
    · rwa [← Except.ok.inj h]
    · cases h

/-- Two jobs, one of which has a selection table. -/
def oldAndNew : Disk := stampDisk [⟨"new.parquet", true, 2⟩, ⟨"old.parquet", true, 1⟩,
  ⟨"old.detector_images.parquet", true, 3⟩] (by decide)

/-- They are found, and the newer is drawn first. -/
theorem backfill_right_two : ∃ examined survey r,
    (started 1).backfill oldAndNew 200 = .ok r ∧
      Backfilled oldAndNew "/stamps" examined (started 1) survey r := by
  have hstarted : plotSystem.Reach System.always (started 1) := .init ⟨1, rfl⟩
  have hset : oldAndNew.stampDir = some "/stamps" := rfl
  obtain ⟨examined, survey, r, -, -, hr, -, hright⟩ :=
    backfill_right hstarted (by decide) hset (by decide) rfl 200
  refine ⟨examined, survey, r, hr, hright.mpr fun c _ _ h => ?_⟩
  obtain ⟨⟨i, hi⟩, -⟩ := h
  exact absurd (show DrainState.top = _ from hi) (by simp)

/-- One job, without plots. -/
def givenUpDisk : Disk := stampDisk [⟨"job.parquet", true, 1⟩] (by decide)

/-- A job that was given up and has no plot is left out, though it neither waits nor is
drawn. -/
theorem abandoned_is_left_out : ∃ p : PlotPool, plotSystem.Reach System.always p ∧
    p.queue.flights ≠ 0 ∧ ∀ examined survey r,
      Newest [⟨"job.parquet", true, 1⟩] (clampJobs 200) examined →
        p.backfill givenUpDisk 200 = .ok r →
          ¬ Backfilled givenUpDisk "/stamps" examined p survey r := by
  obtain ⟨p, hp, hflights, hqueued, hstack, hloop⟩ : ∃ p : PlotPool,
      System.follow PlotPool.next benchGivenUp (started 1) = some p ∧ p.queue.flights = 1 ∧
        (p.backfill givenUpDisk 200).toOption.map (·.queued) = some [] ∧ p.queue.stack = [] ∧
        p.loops 0 = .pausing "job" :=
    ⟨_, rfl, rfl, rfl, rfl, rfl⟩
  have hgood := reach_good (follow_reach hp)
  refine ⟨p, follow_reach hp, by omega, fun examined survey r hnewest hr hright => ?_⟩
  rw [hr] at hqueued
  have hqueued : r.queued = [] := Option.some.inj hqueued
  have htable : ∀ c, HasTable [⟨"job.parquet", true, 1⟩] c ↔ c = toLex (1, "job") := by
    intro c
    rw [← mem_candidates]
    exact List.mem_singleton
  have hexamined : toLex (1, "job") ∈ examined := by
    by_contra hnot
    obtain ⟨hlength, hlater⟩ := hnewest.rest _ ((htable _).mpr rfl) hnot
    obtain ⟨c, hc⟩ := List.exists_mem_of_length_pos (by rw [hlength]; decide : 0 < examined.length)
    exact (hlater c hc).ne ((htable c).mp (hnewest.mem c hc)).symm
  have hsends : ∀ i, ¬ p.Sends i "job" := by
    intro i hi
    have hi : p.loops i = .sending "job" := hi
    rcases Nat.eq_zero_or_pos i with rfl | hpos
    · exact absurd (hloop.symm.trans hi) (by simp)
    · exact absurd ((hgood.shape.beyond i (by omega)).symm.trans hi) (by simp)
  have hmem := (hright.exactly "job").mpr ⟨⟨_, hexamined, rfl⟩, rfl, by rw [hstack]; simp, hsends⟩
  rw [hqueued] at hmem
  exact absurd hmem List.not_mem_nil

end PlotPool

end DonutServer
