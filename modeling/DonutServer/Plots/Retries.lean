/-
How many jobs the retry table holds.

A job gets an entry when its command first finds no child, and keeps it until the job
ends.  Meanwhile it waits in the stack, and what comes in later is taken before it.  So
the entries are the jobs that wait after they were put back and the jobs that are sent
again, and the number of flights bounds only the second kind.

What keeps the first kind few is that nothing comes in on top of them.  A job that was put
back is then the next to be taken, and what is put back and what is out for a command
together were all out for a command once, one for each flight.  With arrivals in between
there is no bound at all (`retries_unbounded`).
-/
import Mathlib.Data.Set.Card
import DonutServer.Plots.Loss

namespace DonutServer

open Function

/-- The jobs with an entry in `_retries`. -/
def PlotQueue.retrying (q : PlotQueue) : Set JobId := {jobId | q.retries jobId ≠ 0}

namespace PlotPool

variable {p p' : PlotPool} {a : PlotAction} {i : Nat} {jobId : JobId}

/-- How many commands were sent for the job since it was last accepted. -/
def sends (p : PlotPool) (jobId : JobId) : Nat :=
  ((p.tickets jobId).head?.map Ticket.sends).getD 0

/-- The first command for the job since it was accepted finds no child. -/
def FirstLoss (p : PlotPool) (a : PlotAction) (i : Nat) (jobId : JobId) : Prop :=
  (∃ kind reason, a = .sent i (.noChild kind reason)) ∧ p.Sends i jobId ∧ p.sends jobId = 1

/-- There are no more jobs in `_retries` than flights. -/
def RetriesBounded (p : PlotPool) : Prop := p.queue.retrying.encard ≤ p.queue.flights

/-! ### The entries are the jobs put back

A job has an entry exactly from its first loss to its end.  In between it waits or has a command
out, and how many times it was lost is one less than how many commands were sent for it.
-/

/-- The commands for a job that waits are its losses, -/
theorem Good.sends_waiting (h : p.Good) (hopen : p.closing = false)
    (hwaits : jobId ∈ p.queue.stack) : p.sends jobId = p.queue.retries jobId := by
  obtain ⟨t, rest, ht⟩ := List.exists_cons_of_ne_nil ((h.accounts jobId).known (Or.inl hwaits))
  unfold sends
  rw [ht]
  exact (h.accounts jobId).waiting hopen hwaits t rest ht

/-- and one that is out is one more. -/
theorem Good.sends_flying (h : p.Good) (hopen : p.closing = false) (hsends : p.Sends i jobId) :
    p.sends jobId = p.queue.retries jobId + 1 := by
  obtain ⟨t, rest, ht⟩ := List.exists_cons_of_ne_nil ((h.accounts jobId).known (Or.inr ⟨i, hsends⟩))
  unfold sends
  rw [ht]
  exact (h.accounts jobId).flying hopen ⟨i, hsends⟩ t rest ht

/-- A job with an entry waits or has a command out. -/
theorem Good.retrying_live (h : p.Good) (hopen : p.closing = false)
    (hretries : jobId ∈ p.queue.retrying) : jobId ∈ p.queue.stack ∨ ∃ i, p.Sends i jobId := by
  by_contra hidle
  exact hretries ((h.accounts jobId).rested hopen hidle)

/-- Only a flight there is has a command out. -/
theorem Shape.sending_lt (h : p.Shape) (hsends : p.Sends i jobId) : i < p.queue.flights := by
  by_contra hi
  exact absurd ((h.beyond i (Nat.le_of_not_lt hi)).symm.trans hsends) (by simp)

/-! ### What a step does to the table

One count is written, or none.  It goes up where a command finds no child, and its entry goes where
the job ends.
-/

/-- A job that is settled has no entry any more. -/
theorem settle_retries {outcome : PlotOutcome} :
    ((p.settle jobId outcome).leave i).queue.retries = update p.queue.retries jobId 0 := by
  cases outcome <;> rfl

/-- A job that found no child has one more loss, or none any more. -/
theorem noChild_retries {kind reason : String} :
    (p.noChild i jobId kind reason).queue.retries = update p.queue.retries jobId
      (if plotMaxRetries ≤ p.queue.retries jobId + 1 then 0 else p.queue.retries jobId + 1) := by
  unfold PlotPool.noChild
  dsimp only
  split <;> rfl

/-- Where no count is written the entries are the same. -/
theorem retrying_same (h : p'.queue.retries = p.queue.retries) :
    p'.queue.retrying = p.queue.retrying := by
  unfold PlotQueue.retrying
  rw [h]

/-- What a first loss does: the job has an entry that it had not. -/
theorem FirstLoss.next (h : p.FirstLoss a i jobId) (hgood : p.Good) (hstep : p.next a = some p') :
    p.closing = false ∧ jobId ∉ p.queue.retrying ∧
      p'.queue.retrying = insert jobId p.queue.retrying := by
  obtain ⟨⟨kind, reason, rfl⟩, hsends, hfirst⟩ := h
  obtain ⟨hopen, rfl⟩ := next_noChild hsends hstep
  have hnone : p.queue.retries jobId = 0 := by
    have hcount := hgood.sends_flying hopen hsends
    omega
  refine ⟨hopen, fun hmem => hmem hnone, ?_⟩
  ext other
  show (p.noChild i jobId kind reason).queue.retries other ≠ 0 ↔
    other = jobId ∨ p.queue.retries other ≠ 0
  rw [noChild_retries, hnone, if_neg (by decide)]
  by_cases ho : other = jobId
  · rw [ho, update_self]
    exact ⟨fun _ => Or.inl rfl, fun _ => by simp⟩
  · rw [update_of_ne ho]
    exact ⟨Or.inr, fun hmem => hmem.resolve_left ho⟩

/-- At first there is no entry. -/
theorem started_retrying (flights : Nat) : (started flights).queue.retrying = ∅ :=
  Set.eq_empty_of_forall_notMem fun _ hmem => hmem rfl

/-! ### Nothing comes in on top of a job that was put back

While that is so, a job that was put back is on top of the stack until it is taken again.  So those
that wait after a loss and those that are out for a command are never more than the flights: a
flight that goes on to another job has none left to take that was lost before.
-/

/-- Runs in which no job is accepted while one that was put back waits. -/
def acceptsOnFresh (p : PlotPool) (a : PlotAction) (_ : PlotPool) : Prop :=
  ∀ jobId, a = .enqueue jobId → (p.queue.enqueue jobId).2 = true →
    ∀ other ∈ p.queue.stack, p.sends other = 0

/-- The jobs with an entry or a command out. -/
def engaged (p : PlotPool) : Set JobId := {jobId | jobId ∈ p.queue.retrying ∨ ∃ i, p.Sends i jobId}

/-- The jobs that were put back wait above all others, and with those that have a command
out they are not more than the flights. -/
structure Stacked (p : PlotPool) : Prop where
  above : p.closing = false → p.queue.stack.Pairwise fun jobId other =>
    p.queue.retries jobId = 0 → p.queue.retries other = 0
  few : p.engaged.encard ≤ p.queue.flights

theorem Shape.encard_sending_le (h : p.Shape) :
    {jobId | ∃ i, p.Sends i jobId}.encard ≤ p.queue.flights := by
  let held : Finset JobId := (Finset.range p.queue.flights).image fun i => ((p.loops i).holds).getD ""
  have hsub : {jobId | ∃ i, p.Sends i jobId} ⊆ (held : Set JobId) := by
    intro jobId hc
    obtain ⟨i, hi⟩ := hc
    refine Finset.mem_coe.mpr (Finset.mem_image.mpr ⟨i, Finset.mem_range.mpr (h.sending_lt hi), ?_⟩)
    rw [show p.loops i = .sending jobId from hi]
    rfl
  have hcard : held.card ≤ p.queue.flights :=
    Finset.card_image_le.trans_eq (Finset.card_range p.queue.flights)
  calc {jobId | ∃ i, p.Sends i jobId}.encard ≤ (held : Set JobId).encard := Set.encard_le_encard hsub
    _ = held.card := Set.encard_coe_eq_coe_finsetCard held
    _ ≤ p.queue.flights := by exact_mod_cast hcard

/-- A loop goes on to a state in which it has no command out. -/
theorem engaged_goto {state : DrainState} (hloops : p'.loops = update p.loops i state)
    (hstate : ∀ {j}, state ≠ .sending j) (hretrying : p'.queue.retrying ⊆ p.engaged) :
    p'.engaged ⊆ p.engaged := by
  intro j hj
  rcases hj with hj | ⟨k, hk⟩
  · exact hretrying hj
  · exact Or.inr ⟨k, by_contra fun hnot => not_sends_goto hloops hstate hnot hk⟩

/-- The command of a job has come to an end, with or without the job put back. -/
theorem Stacked.returned {state : DrainState} {tries : Nat} (h : p.Stacked) (hs : p.Shape)
    (hsends : p.Sends i jobId) (hloops : p'.loops = update p.loops i state)
    (hstate : ∀ {j}, state ≠ .sending j)
    (hretries : p'.queue.retries = update p.queue.retries jobId tries)
    (hstack : p'.queue.stack = p.queue.stack ∨
      tries ≠ 0 ∧ p'.queue.stack = jobId :: p.queue.stack)
    (hsame : (p'.closing, p'.queue.flights) = (p.closing, p.queue.flights)) : p'.Stacked := by
  simp only [Prod.mk.injEq] at hsame
  obtain ⟨hclosing, hflights⟩ := hsame
  have hother : ∀ j ∈ p.queue.stack, p'.queue.retries j = p.queue.retries j := by
    intro j hj
    rw [hretries]
    refine update_of_ne (fun heq => ?_) _ _
    subst heq
    exact hs.unsent i j hsends hj
  refine ⟨fun hopen => ?_, ?_⟩
  · have hbelow : p.queue.stack.Pairwise fun j other =>
        p'.queue.retries j = 0 → p'.queue.retries other = 0 := by
      refine (h.above (hclosing.symm.trans hopen)).imp_of_mem fun {j other} hj hmem himp => ?_
      rw [hother j hj, hother other hmem]
      exact himp
    rcases hstack with hstack | ⟨htries, hstack⟩
    · rw [hstack]
      exact hbelow
    · rw [hstack]
      refine List.pairwise_cons.mpr ⟨fun _ _ hnone => absurd ?_ htries, hbelow⟩
      rw [← hnone, hretries, update_self]
  · rw [hflights]
    refine (Set.encard_le_encard (engaged_goto hloops hstate fun j hj => ?_)).trans h.few
    by_cases hjob : j = jobId
    · subst hjob
      exact Or.inr ⟨i, hsends⟩
    · have hj : p'.queue.retries j ≠ 0 := hj
      rw [hretries, update_of_ne hjob] at hj
      exact Or.inl hj

/-- A loop without a command goes on. -/
theorem Stacked.passes {state : DrainState} (h : p.Stacked)
    (hloops : p'.loops = update p.loops i state) (hstate : ∀ {j}, state ≠ .sending j)
    (habove : p'.closing = false → p.closing = false ∧ p'.queue.stack = p.queue.stack)
    (hqueue : (p'.queue.retries, p'.queue.flights) = (p.queue.retries, p.queue.flights)) :
    p'.Stacked := by
  simp only [Prod.mk.injEq] at hqueue
  obtain ⟨hretries, hflights⟩ := hqueue
  refine ⟨fun hopen => ?_, ?_⟩
  · obtain ⟨hopen, hstack⟩ := habove hopen
    rw [hstack, hretries]
    exact h.above hopen
  · rw [hflights]
    refine (Set.encard_le_encard (engaged_goto hloops hstate ?_)).trans h.few
    rw [retrying_same hretries]
    exact fun _ hj => Or.inl hj

/-- If a flight takes a job without an entry, none that has one is left in the stack. -/
theorem Stacked.turn (h : p.Stacked) (hgood : p.Good) (hopen : p.closing = false)
    (hgood' : (p.turn i).Good) : (p.turn i).Stacked := by
  obtain ⟨hclosing, hflights, hretries⟩ := turn_stays (p := p) (i := i)
  cases hstack : p.queue.stack with
  | nil =>
      have hturn := Shape.turn_nil (i := i) hstack
      have hloops : (p.turn i).loops = update p.loops i .waiting := by
        rw [hturn]
        rfl
      have hstack' : (p.turn i).queue.stack = p.queue.stack := by
        rw [hturn, hstack]
        rfl
      exact h.passes hloops (by simp) (fun _ => ⟨hopen, hstack'⟩) (by rw [hretries, hflights])
  | cons job rest =>
      have hturn := hgood.shape.turn_cons (i := i) hstack
      have habove := h.above hopen
      rw [hstack] at habove
      obtain ⟨hjob, hrest⟩ := List.pairwise_cons.mp habove
      have hstack' : (p.turn i).queue.stack = rest := by
        rw [hturn]
        rfl
      have hopen' : (p.turn i).closing = false := hclosing.trans hopen
      refine ⟨fun _ => ?_, ?_⟩
      · rw [hstack', hretries]
        exact hrest
      · by_cases hfresh : p.queue.retries job = 0
        · refine (Set.encard_le_encard fun j hj => ?_).trans hgood'.shape.encard_sending_le
          rcases hj with hj | hj
          · refine (hgood'.retrying_live hopen' hj).resolve_left fun hwaits => ?_
            rw [hstack'] at hwaits
            rw [retrying_same hretries] at hj
            exact hj (hjob j hwaits hfresh)
          · exact hj
        · rw [hflights]
          refine (Set.encard_le_encard fun j hj => ?_).trans h.few
          rcases hj with hj | ⟨k, hk⟩
          · rw [retrying_same hretries] at hj
            exact Or.inl hj
          · rw [hturn] at hk
            rcases (sends_goto rfl k).mp hk with ⟨_, hsending⟩ | ⟨_, hbefore⟩
            · obtain rfl := DrainState.sending.inj hsending
              exact Or.inl hfresh
            · exact Or.inr ⟨k, hbefore⟩

/-- A job comes in where none waits that was put back. -/
theorem Stacked.enqueue (h : p.Stacked) (hgood : p.Good)
    (hok : acceptsOnFresh p (.enqueue jobId) p') : (p.enqueue jobId).Stacked := by
  rcases enqueue_cases p jobId with hrefused | ⟨hflights, hfresh⟩
  · rw [hrefused]
    exact h
  have haccepted : (p.queue.enqueue jobId).2 = true := by
    unfold PlotQueue.enqueue
    rw [if_neg hflights, if_neg hfresh]
  rw [enqueue_accepted hflights hfresh]
  refine ⟨fun hopen => List.pairwise_cons.mpr ⟨fun other hother _ => ?_, h.above hopen⟩, h.few⟩
  exact (hgood.sends_waiting hopen hother).symm.trans (hok jobId rfl haccepted other hother)

/-- The step lemma. -/
theorem Stacked.next (h : p.Stacked) (hgood : p.Good) (hok : acceptsOnFresh p a p')
    (hstep : p.next a = some p') : p'.Stacked := by
  have hgood' := hgood.next hstep
  have hm := next_moves hstep
  cases hm with
  | enqueue => exact h.enqueue hgood hok
  | close => exact ⟨fun hopen => absurd hopen (by simp), h.few⟩
  | turn _ _ hopen => exact h.turn hgood hopen hgood'
  | settled i jobId outcome _ hopen hi hsends =>
      have hloops : ((p.settle jobId outcome).leave i).loops = update p.loops i .top := rfl
      have hleft : ((p.settle jobId outcome).leave i).Stacked := by
        refine h.returned hgood.shape hsends hloops (by simp) settle_retries (Or.inl ?_) ?_
        · cases outcome <;> rfl
        · cases outcome <;> rfl
      exact hleft.turn (hgood.settle_leave hi hsends) hopen hgood'
  | noChild i jobId kind reason _ _ hsends =>
      refine h.returned hgood.shape hsends noChild_loops (by simp) noChild_retries ?_ ?_
      · unfold PlotPool.noChild
        dsimp only
        split
        · exact Or.inl rfl
        · exact Or.inr ⟨Nat.succ_ne_zero _, rfl⟩
      · rw [noChild_same.1, noChild_same.2]
  | paused i jobId hopen hi hpausing =>
      have hloops : (p.leave i).loops = update p.loops i .top := rfl
      have hleft : (p.leave i).Stacked := h.passes hloops (by simp) (fun _ => ⟨hopen, rfl⟩) rfl
      exact hleft.turn (hgood.leave hi hpausing) hopen hgood'
  | cancelled i hclosing =>
      obtain ⟨hsame, hflights, hretries⟩ := cancelled_stays (p := p) (i := i)
      refine h.passes cancelled_loops (by simp) (fun hopen => ?_) (by rw [hflights, hretries])
      exact absurd (hopen.symm.trans (hsame.trans hclosing)) (by simp)

/-- At first nothing is there. -/
theorem Stacked.init (hinit : plotSystem.init p) : p.Stacked := by
  obtain ⟨flights, rfl⟩ := hinit
  have hnone : (started flights).engaged = ∅ := by
    refine Set.eq_empty_of_forall_notMem fun jobId hmem => ?_
    rcases hmem with hmem | ⟨i, hsends⟩
    · exact hmem rfl
    · exact absurd (show DrainState.top = .sending jobId from hsends) (by simp)
  refine ⟨fun _ => List.Pairwise.nil, ?_⟩
  rw [hnone, Set.encard_empty]
  exact bot_le

/-- **One entry a flight**, in every run in which no job is accepted while one that was put
back waits. -/
theorem retries_bounded_by_arrivals (h : plotSystem.Reach acceptsOnFresh p) : p.RetriesBounded := by
  have hstacked : p.Stacked := h.invariant' (fun _ => Stacked.init) fun _ _ _ hr hp hok hstep =>
    hp.next (reach_good hr) hok hstep
  exact (Set.encard_le_encard fun _ hmem => Or.inl hmem).trans hstacked.few

/-- A check that a job comes in while none waits that was put back. -/
def comesOnFresh (p : PlotPool) : PlotAction → Bool
  | .enqueue _ => p.queue.stack.all fun other => p.sends other = 0
  | _ => true

/-- Two flights take two jobs and lose them both, and one of them is taken again. -/
def benchBothLost : List PlotAction :=
  let lost := PlotResult.noChild "CoordinatorLost" "gone"
  [.enqueue "old", .enqueue "new", .begin 0, .begin 1, .sent 1 lost, .sent 0 lost, .paused 1]

/-- Two flights have two entries. -/
theorem retries_bounded_by_arrivals_two :
    ∃ p : PlotPool, p.queue.flights = 2 ∧ p.queue.retries "old" = 1 ∧ p.queue.retries "new" = 1 ∧
      p.RetriesBounded := by
  obtain ⟨p, hp, hflights, hold, hnew⟩ : ∃ p : PlotPool,
      System.followWhen comesOnFresh PlotPool.next benchBothLost (started 2) = some p ∧
        p.queue.flights = 2 ∧ p.queue.retries "old" = 1 ∧ p.queue.retries "new" = 1 :=
    ⟨_, rfl, rfl, rfl, rfl⟩
  have hcheck : ∀ p a p', comesOnFresh p a = true → acceptsOnFresh p a p' := by
    rintro p a p' hfresh jobId rfl - other hother
    exact of_decide_eq_true (List.all_eq_true.mp hfresh other hother)
  have hreach := System.Reach.followWhen (M := plotSystem) (fun _ _ _ h => h) hcheck
    (.init ⟨2, rfl⟩) hp
  exact ⟨p, hflights, hold, hnew, retries_bounded_by_arrivals hreach⟩

/-- A job waits after its first loss, and a flight has lost another one. -/
def benchTwoLosses : List PlotAction :=
  let lost := PlotResult.noChild "CoordinatorLost" "gone"
  [.enqueue "old", .begin 0, .sent 0 lost, .enqueue "new", .paused 0, .sent 0 lost]

/-- **More entries than flights.**  The one flight has lost two jobs, and neither has ended. -/
theorem two_entries_one_flight :
    ∃ p : PlotPool, plotSystem.Reach System.always p ∧ p.queue.flights = 1 ∧
      p.queue.retries "old" = 1 ∧ p.queue.retries "new" = 1 ∧ ¬ p.RetriesBounded := by
  obtain ⟨p, hp, hflights, hold, hnew⟩ : ∃ p : PlotPool,
      System.follow PlotPool.next benchTwoLosses (started 1) = some p ∧ p.queue.flights = 1 ∧
        p.queue.retries "old" = 1 ∧ p.queue.retries "new" = 1 :=
    ⟨_, rfl, rfl, rfl, rfl⟩
  refine ⟨p, follow_reach hp, hflights, hold, hnew, fun hbounded => ?_⟩
  unfold RetriesBounded at hbounded
  rw [hflights] at hbounded
  have hsame := Set.encard_le_one_iff.mp hbounded "old" "new" (by rw [PlotQueue.retrying]; simp [hold])
    (by rw [PlotQueue.retrying]; simp [hnew])
  exact absurd hsame (by decide)

/-! ### No bound at all

The run that breaks the bound repeats one round: a new job comes in, is taken before all others,
finds no child and is put back.  Each round adds an entry, and none of them ever ends; the
induction is on the number of rounds.
-/

/-- A job that a queue takes, whatever else it has taken. -/
theorem exists_fresh (hfinite : p.queue.retrying.Finite) : ∃ jobId,
    ¬ (jobId ∈ p.queue.queued ∨ p.queue.isDrawing jobId = true) ∧ jobId ∉ p.queue.retrying := by
  let drawn : Finset JobId := ((List.range p.queue.flights).filterMap p.queue.drawing).toFinset
  obtain ⟨jobId, hjob⟩ :=
    Infinite.exists_notMem_finset (p.queue.queued ∪ drawn ∪ hfinite.toFinset)
  rw [Finset.mem_union, Finset.mem_union, not_or, not_or] at hjob
  obtain ⟨⟨hqueued, hdrawn⟩, hretrying⟩ := hjob
  refine ⟨jobId, fun hmem => hmem.elim hqueued fun hd => hdrawn ?_, fun hmem =>
    hretrying (hfinite.mem_toFinset.mpr hmem)⟩
  obtain ⟨i, hi, hdrawing⟩ := List.any_eq_true.mp hd
  exact List.mem_toFinset.mpr (List.mem_filterMap.mpr ⟨i, hi, of_decide_eq_true hdrawing⟩)

/-- The loop of the first flight is about to take a job. -/
def Ready (p : PlotPool) : Prop :=
  p.closing = false ∧ p.queue.flights ≠ 0 ∧ (p.loops 0 = .top ∨ ∃ jobId, p.loops 0 = .pausing jobId)

/-- A loop at its top takes what is on top of the stack. -/
theorem Shape.turn_top {rest : List JobId} (hs : p.Shape) (hstack : p.queue.stack = jobId :: rest) :
    (p.turn i).Sends i jobId := by
  rw [hs.turn_cons hstack]
  show update p.loops i (.sending jobId) i = _
  rw [update_self]

/-- It takes the job on top. -/
theorem Ready.takes {rest : List JobId} (h : p.Ready) (hgood : p.Good)
    (hstack : p.queue.stack = jobId :: rest) : ∃ a p', p.next a = some p' ∧ p'.Sends 0 jobId ∧
      p'.closing = false ∧ p'.queue.retries = p.queue.retries := by
  obtain ⟨hopen, hflights, hloop⟩ := h
  have hguard : ¬ (p.closing = true ∨ p.queue.flights ≤ 0) := by
    rw [hopen]
    simp [hflights]
  rcases hloop with htop | ⟨job, hpausing⟩
  · refine ⟨.begin 0, p.turn 0, ?_, hgood.shape.turn_top hstack, turn_stays.closing.trans hopen,
      turn_stays.retries⟩
    unfold PlotPool.next
    dsimp only
    rw [if_neg hguard, htop]
  · have hshape := (hgood.leave (Nat.pos_of_ne_zero hflights) hpausing).shape
    refine ⟨.paused 0, (p.leave 0).turn 0, ?_, hshape.turn_top (p := p.leave 0) hstack,
      turn_stays.closing.trans hopen, turn_stays.retries⟩
    unfold PlotPool.next
    dsimp only
    rw [if_neg hguard, hpausing]

/-- A job comes in, is taken before all that wait, and finds no child. -/
theorem Ready.round (h : p.Ready) (hreach : plotSystem.Reach System.always p)
    (hfinite : p.queue.retrying.Finite) : ∃ p' jobId, plotSystem.Reach System.always p' ∧
      p'.Ready ∧ p'.queue.flights = p.queue.flights ∧ jobId ∉ p.queue.retrying ∧
      p'.queue.retrying = insert jobId p.queue.retrying := by
  obtain ⟨jobId, hfresh, hnew⟩ := exists_fresh hfinite
  have hstep : p.next (.enqueue jobId) = some (p.enqueue jobId) := rfl
  have hcome : plotSystem.Reach System.always (p.enqueue jobId) := .step hreach trivial hstep
  obtain ⟨hstack, hready⟩ : (p.enqueue jobId).queue.stack = jobId :: p.queue.stack ∧
      (p.enqueue jobId).Ready := by
    rw [enqueue_accepted h.2.1 hfresh]
    exact ⟨rfl, h⟩
  have hretries : (p.enqueue jobId).queue.retries = p.queue.retries := enqueue_stays.retries
  obtain ⟨a, q, htake, hsends, hopen, hretries'⟩ := hready.takes (reach_good hcome) hstack
  have htaken : plotSystem.Reach System.always q := .step hcome trivial htake
  have hgood := reach_good htaken
  have hflights : q.queue.flights = p.queue.flights :=
    (next_flights htake).trans (next_flights hstep)
  have hsame : q.queue.retrying = p.queue.retrying := retrying_same (hretries'.trans hretries)
  have hlose : q.next (.sent 0 (.noChild "CoordinatorLost" "gone")) =
      some (q.noChild 0 jobId "CoordinatorLost" "gone") := by
    have hguard : ¬ (q.closing = true ∨ q.queue.flights ≤ 0) := by
      rw [hopen, hflights]
      simp [h.2.1]
    unfold PlotPool.next
    dsimp only
    rw [if_neg hguard, show q.loops 0 = .sending jobId from hsends]
    rfl
  have hloss : q.FirstLoss (.sent 0 (.noChild "CoordinatorLost" "gone")) 0 jobId := by
    refine ⟨⟨_, _, rfl⟩, hsends, ?_⟩
    rw [hgood.sends_flying hopen hsends, hretries', hretries]
    exact congrArg (· + 1) (not_not.mp hnew)
  obtain ⟨_, _, hinsert⟩ := hloss.next hgood hlose
  have hflights' := (next_flights hlose).trans hflights
  refine ⟨_, jobId, .step htaken trivial hlose, ⟨?_, ?_, Or.inr ⟨jobId, ?_⟩⟩, hflights', hnew, ?_⟩
  · exact noChild_same.1.trans hopen
  · rw [hflights']
    exact h.2.1
  · rw [noChild_loops, update_self]
  · rw [hinsert, hsame]

/-- **No bound at all.**  With any number of flights but none, runs fill the table to any
size: each job is lost, and the next one comes in before the pause is over. -/
theorem retries_unbounded {flights : Nat} (hflights : flights ≠ 0) (n : Nat) :
    ∃ p : PlotPool, plotSystem.Reach System.always p ∧ p.queue.flights = flights ∧
      p.queue.retrying.encard = n := by
  suffices hready : ∃ p : PlotPool, plotSystem.Reach System.always p ∧ p.Ready ∧
      p.queue.flights = flights ∧ p.queue.retrying.encard = n by
    obtain ⟨p, hreach, _, hsame, hcard⟩ := hready
    exact ⟨p, hreach, hsame, hcard⟩
  induction n with
  | zero =>
      refine ⟨started flights, .init ⟨flights, rfl⟩, ⟨rfl, hflights, Or.inl rfl⟩, rfl, ?_⟩
      rw [started_retrying, Set.encard_empty]
      rfl
  | succ n ih =>
      obtain ⟨p, hreach, hready, hsame, hcard⟩ := ih
      obtain ⟨p', jobId, hreach', hready', hsame', hnew, hinsert⟩ :=
        hready.round hreach (Set.finite_of_encard_eq_coe hcard)
      refine ⟨p', hreach', hready', hsame'.trans hsame, ?_⟩
      rw [hinsert, Set.encard_insert_of_notMem hnew, hcard]
      exact (Nat.cast_succ n).symm

end PlotPool

end DonutServer
