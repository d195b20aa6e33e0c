/-
What a flight without a child does to the queue.

A job that found no child goes back on top of the stack, nobody is woken, and its loop
pauses with the job still in `_drawing`.  Each of the three breaks something that holds
without it: that nobody sleeps beside a job that waits, that the queue says what is
drawn, and that the newest job is taken first.  Each section says exactly when.
-/
import Mathlib.Data.Fintype.EquivFin
import DonutServer.Plots.Conserve

namespace DonutServer

open Function

namespace PlotPool

variable {p p' : PlotPool} {i : Nat} {jobId : JobId}

/-- The step puts the job back, with the loop of flight `i`. -/
def PutsBack (p : PlotPool) (a : PlotAction) (i : Nat) (jobId : JobId) : Prop :=
  (∃ kind reason, a = .sent i (.noChild kind reason)) ∧ p.Sends i jobId ∧
    p.queue.retries jobId + 1 < plotMaxRetries

/-- A command that found no child is a step of its loop. -/
theorem next_noChild {kind reason : String} (hsends : p.Sends i jobId)
    (hstep : p.next (.sent i (.noChild kind reason)) = some p') :
    p.closing = false ∧ p' = p.noChild i jobId kind reason := by
  have hm := next_moves hstep
  cases hm with
  | turn _ _ _ _ _ ha => rcases ha with ha | ha <;> exact absurd ha (by simp)
  | settled _ _ _ _ _ _ _ hresult => exact absurd rfl (hresult kind reason)
  | noChild _ job _ _ hopen _ hsends' =>
      obtain rfl := DrainState.sending.inj (hsends.symm.trans hsends')
      exact ⟨hopen, rfl⟩

/-- What such a step leaves. -/
theorem PutsBack.next {a : PlotAction} (h : p.PutsBack a i jobId) (hstep : p.next a = some p') :
    p'.queue.stack = jobId :: p.queue.stack ∧ p'.queue.wake = p.queue.wake ∧
      p'.tickets = p.tickets ∧ p'.closing = false := by
  obtain ⟨⟨kind, reason, rfl⟩, hsends, hfew⟩ := h
  obtain ⟨hopen, rfl⟩ := next_noChild hsends hstep
  have htries : ¬ plotMaxRetries ≤ p.queue.retries jobId + 1 := Nat.not_le_of_lt hfew
  unfold PlotPool.noChild
  dsimp only
  rw [if_neg htries]
  exact ⟨rfl, rfl, rfl, hopen⟩

/-! ### Sleeping beside a job that waits

A loop that sleeps has found the stack empty, and whoever puts a job on the stack sets the event;
whoever puts one back does not.  So nothing goes wrong as long as a job is put back only where
nobody sleeps, and the next job put back beside a sleeper is lost to it until something else wakes
it.
-/

/-- A job waits, and a loop sleeps on the event, which is clear. -/
def LostWakeup (p : PlotPool) : Prop :=
  p.queue.stack ≠ [] ∧ p.queue.wake.isSet = false ∧ ∃ i, i ∈ p.queue.wake.waiters

/-- Runs in which a job is put back only when no loop is asleep. -/
def putsBackAwake (p : PlotPool) (a : PlotAction) (_ : PlotPool) : Prop :=
  ∀ i jobId, p.PutsBack a i jobId → p.queue.wake.waiters = ∅

/-- Who sleeps has seen the stack empty, and it is. -/
def Quiet (p : PlotPool) : Prop := ∀ i, i ∈ p.queue.wake.waiters → p.queue.stack = []

/-- Where it holds no wakeup is lost. -/
theorem Quiet.not_lost (h : p.Quiet) : ¬ p.LostWakeup := by
  intro hc
  obtain ⟨hstack, _, i, hi⟩ := hc
  exact hstack (h i hi)

/-- A loop's turn keeps it. -/
theorem Quiet.turn (h : p.Quiet) (hs : p.Shape) : (p.turn i).Quiet := by
  intro k hk
  cases hstack : p.queue.stack with
  | nil =>
      rw [Shape.turn_nil hstack]
      rfl
  | cons job rest =>
      rw [hs.turn_cons hstack] at hk
      exact absurd ((h k hk).symm.trans hstack) (by simp)

/-- The step lemma. -/
theorem Quiet.next {a : PlotAction} (h : p.Quiet) (hgood : p.Good) (hok : putsBackAwake p a p')
    (hstep : p.next a = some p') : p'.Quiet := by
  have hm := next_moves hstep
  cases hm with
  | enqueue jobId =>
      rcases enqueue_cases p jobId with hrefused | ⟨hflights, hfresh⟩
      · rw [hrefused]
        exact h
      · rw [enqueue_accepted hflights hfresh]
        exact fun k hk => absurd hk (Finset.notMem_empty k)
  | close => exact fun k hk => absurd hk (Finset.notMem_empty k)
  | turn => exact h.turn hgood.shape
  | settled i jobId outcome _ _ hi hsends =>
      refine Quiet.turn ?_ (hgood.settle_leave hi hsends).shape
      cases outcome <;> exact h
  | noChild i jobId kind reason _ _ hsends =>
      by_cases htries : plotMaxRetries ≤ p.queue.retries jobId + 1
      · unfold PlotPool.noChild
        dsimp only
        rw [if_pos htries]
        exact h
      · have hputs : p.PutsBack (.sent i (.noChild kind reason)) i jobId :=
          ⟨⟨kind, reason, rfl⟩, hsends, Nat.lt_of_not_le htries⟩
        intro k hk
        rw [(hputs.next hstep).2.1, hok i jobId hputs] at hk
        exact absurd hk (Finset.notMem_empty k)
  | paused i jobId _ hi hpausing => exact Quiet.turn h (hgood.leave hi hpausing).shape
  | cancelled i hclosing =>
      intro k hk
      have hwake : (p.cancelled i).queue.wake = p.queue.wake := by
        unfold PlotPool.cancelled
        split <;> rfl
      rw [hwake, hgood.shape.closed hclosing] at hk
      exact absurd hk (Finset.notMem_empty k)

/-- **No lost wakeup**, in every run in which a job is put back only when no loop is asleep;
and a step that puts one back beside a sleeping loop loses a wakeup. -/
theorem no_lost_wakeup (h : plotSystem.Reach putsBackAwake p) :
    ¬ p.LostWakeup ∧ ∀ a p', p.next a = some p' → (¬ p'.LostWakeup ↔ putsBackAwake p a p') := by
  have hquiet : p.Quiet := by
    refine h.invariant' ?_ fun p a p' hr hp hok hstep => hp.next (reach_good hr) hok hstep
    intro _ hc
    obtain ⟨flights, rfl⟩ := hc
    exact fun _ _ => rfl
  refine ⟨hquiet.not_lost, fun a p' hstep => ⟨fun hkept i jobId hputs => ?_, fun hok => ?_⟩⟩
  · obtain ⟨hstack, hwake, _⟩ := hputs.next hstep
    by_contra hasleep
    obtain ⟨k, hk⟩ := Finset.nonempty_iff_ne_empty.mpr hasleep
    refine hkept ⟨by rw [hstack]; simp, ?_, k, by rw [hwake]; exact hk⟩
    rw [hwake]
    exact Event.isSet_of_mem hk
  · exact (hquiet.next (reach_good h) hok hstep).not_lost

/-- Both of two loops sleep, a job comes in, flight 0 takes it, and loop 1 sleeps again. -/
def benchAsleep : List PlotAction := [.begin 0, .begin 1, .enqueue "job", .awake 0, .awake 1]

/-- A check that a step puts nothing back. -/
def putsNothingBack (p : PlotPool) : PlotAction → Bool
  | .sent _ (.noChild _ _) => p.queue.stack.isEmpty && p.queue.wake.waiters = ∅
  | _ => true

theorem putsNothingBack_awake {a : PlotAction} (h : p.putsNothingBack a = true) :
    putsBackAwake p a p' := by
  intro i jobId hc
  obtain ⟨⟨kind, reason, rfl⟩, _⟩ := hc
  have hboth : p.queue.stack.isEmpty = true ∧ decide (p.queue.wake.waiters = ∅) = true :=
    Bool.and_eq_true_iff.mp h
  exact of_decide_eq_true hboth.2

/-- Nothing waits while loop 1 sleeps and flight 0 draws. -/
theorem no_lost_wakeup_asleep :
    ∃ p : PlotPool, p.Sends 0 "job" ∧ 1 ∈ p.queue.wake.waiters ∧ ¬ p.LostWakeup := by
  obtain ⟨p, hp, hsends, hasleep⟩ : ∃ p : PlotPool,
      System.followWhen putsNothingBack PlotPool.next benchAsleep (started 2) = some p ∧
        p.Sends 0 "job" ∧ 1 ∈ p.queue.wake.waiters :=
    ⟨_, rfl, rfl, by decide⟩
  have hcheck : ∀ p a p', putsNothingBack p a = true → putsBackAwake p a p' :=
    fun _ _ _ h => putsNothingBack_awake h
  have hreach := System.Reach.followWhen (M := plotSystem) (fun _ _ _ h => h) hcheck (.init ⟨2, rfl⟩) hp
  exact ⟨p, hsends, hasleep, (no_lost_wakeup hreach).1⟩

/-- **A lost wakeup.**  Flight 0 has lost its child, its job is back on the stack, and loop 1
sleeps on. -/
theorem lost_wakeup : ∃ p : PlotPool, plotSystem.Reach System.always p ∧ p.LostWakeup := by
  obtain ⟨p, hp, hstack, hset, hasleep⟩ : ∃ p : PlotPool,
      System.follow PlotPool.next (benchAsleep ++ [.sent 0 (.noChild "CoordinatorLost" "gone")])
        (started 2) = some p ∧ p.queue.stack = ["job"] ∧ p.queue.wake.isSet = false ∧
        1 ∈ p.queue.wake.waiters :=
    ⟨_, rfl, rfl, rfl, by decide⟩
  exact ⟨p, follow_reach hp, by rw [hstack]; simp, hset, 1, hasleep⟩

/-! ### What the queue says is drawn

An entry in `_drawing` stays until the pause is over, while the command it was made for has long
come to its end.  In the pause the queue says that a job is drawn which nobody draws, and refuses a
job it would have to take.
-/

/-- The queue says that a flight draws a job exactly if it has a command for it out, and it
takes every job that neither waits nor is drawn. -/
def Truthful (p : PlotPool) : Prop :=
  (∀ i jobId, p.queue.drawing i = some jobId ↔ p.Sends i jobId) ∧
  (∀ jobId, p.queue.stateOf jobId = some "drawing" → ∃ i, p.Sends i jobId) ∧
  ∀ jobId, jobId ∉ p.queue.stack → (∀ i, ¬ p.Sends i jobId) → (p.queue.enqueue jobId).2 = true

/-- Runs in which every command finds a child. -/
def findsChild (_ : PlotPool) (a : PlotAction) (_ : PlotPool) : Prop :=
  ∀ i kind reason, a ≠ .sent i (.noChild kind reason)

/-- No loop is in its pause after a loss. -/
def Busy (p : PlotPool) : Prop := ∀ i jobId, p.loops i ≠ .pausing jobId

/-- Where no loop pauses, a loop holds the job it has a command out for. -/
theorem Busy.holds (h : p.Busy) : (p.loops i).holds = some jobId ↔ p.Sends i jobId := by
  show _ ↔ p.loops i = .sending jobId
  cases hl : p.loops i with
  | sending job => exact ⟨fun heq => congrArg _ (Option.some.inj heq), fun heq =>
      congrArg some (DrainState.sending.inj heq)⟩
  | pausing job => exact absurd hl (h i job)
  | _ => exact ⟨fun heq => absurd heq (by simp [DrainState.holds]), fun heq => absurd heq (by simp)⟩

/-- So what the queue says is drawn is what a command is out for. -/
theorem isDrawing_iff (hs : p.Shape) :
    p.queue.isDrawing jobId = true ↔ ∃ i, (p.loops i).holds = some jobId := by
  constructor
  · intro h
    obtain ⟨i, _, hi⟩ := List.any_eq_true.mp h
    exact ⟨i, (hs.drawing i).symm.trans (of_decide_eq_true hi)⟩
  · intro hc
    obtain ⟨i, hi⟩ := hc
    by_contra hnot
    exact not_isDrawing hs (Bool.eq_false_iff.mpr hnot) i hi

/-- **Plot state is truthful** exactly where there are flights and no loop is pausing. -/
theorem truthful_iff (hs : p.Shape) : p.Truthful ↔ p.queue.flights ≠ 0 ∧ p.Busy := by
  constructor
  · intro h
    obtain ⟨hdrawing, _, haccepts⟩ := h
    have hbusy : p.Busy := by
      intro i jobId hpausing
      have hsends := (hdrawing i jobId).mp (by rw [hs.drawing i, hpausing]; rfl)
      exact absurd (hpausing.symm.trans hsends) (by simp)
    refine ⟨fun hflights => ?_, hbusy⟩
    obtain ⟨jobId, hjob⟩ := Infinite.exists_notMem_finset p.queue.stack.toFinset
    have haccepted := haccepts jobId (fun hmem => hjob (List.mem_toFinset.mpr hmem)) fun i hsends =>
      absurd ((hs.beyond i (by omega)).symm.trans hsends) (by simp)
    unfold PlotQueue.enqueue at haccepted
    rw [if_pos hflights] at haccepted
    exact absurd haccepted (by simp)
  · intro h
    obtain ⟨hflights, hbusy⟩ := h
    refine ⟨fun i jobId => ?_, fun jobId hstate => ?_, fun jobId hstack hfree => ?_⟩
    · rw [hs.drawing i]
      exact hbusy.holds
    · by_cases hd : p.queue.isDrawing jobId = true
      · obtain ⟨i, hi⟩ := (isDrawing_iff hs).mp hd
        exact ⟨i, hbusy.holds.mp hi⟩
      · unfold PlotQueue.stateOf at hstate
        rw [if_neg hd] at hstate
        split at hstate
        · exact absurd (Option.some.inj hstate) (by decide)
        · exact absurd hstate (by simp)
    · have hfresh : ¬ (jobId ∈ p.queue.queued ∨ p.queue.isDrawing jobId = true) := by
        intro h
        rcases h with hmem | hd
        · exact hstack ((hs.queued jobId).mp hmem)
        · obtain ⟨i, hi⟩ := (isDrawing_iff hs).mp hd
          exact hfree i (hbusy.holds.mp hi)
      unfold PlotQueue.enqueue
      rw [if_neg hflights, if_neg hfresh]

/-- A loop's turn leads to no pause, -/
theorem turn_busy {q : PlotPool} (hq : ∀ k job, k ≠ i → q.loops k ≠ .pausing job) : (q.turn i).Busy := by
  intro k job
  have hloops : ∃ state, (q.turn i).loops = update q.loops i state ∧ state ≠ .pausing job := by
    unfold PlotPool.turn
    split
    · exact ⟨_, rfl, by simp⟩
    · exact ⟨_, rfl, by simp⟩
  obtain ⟨state, hloops, hstate⟩ := hloops
  rw [hloops]
  by_cases hk : k = i
  · rw [hk, update_self]
    exact hstate
  · rw [update_of_ne hk]
    exact hq k job hk

/-- A command that found no child does lead to one. -/
theorem noChild_loops {kind reason : String} :
    (p.noChild i jobId kind reason).loops = update p.loops i (.pausing jobId) := by
  unfold PlotPool.noChild
  dsimp only
  split <;> rfl

/-- A loop that is cancelled has ended. -/
theorem cancelled_loops : (p.cancelled i).loops = update p.loops i .ended := by
  unfold PlotPool.cancelled
  split
  · exact update_idem _ _ _
  · exact update_idem _ _ _
  · rfl

/-- The step lemma: no loop pauses unless its command found no child. -/
theorem Busy.next {a : PlotAction} (h : p.Busy) (hstep : p.next a = some p') :
    p'.Busy ↔ findsChild p a p' := by
  have hm := next_moves hstep
  cases hm with
  | noChild i jobId kind reason _ _ _ =>
      refine ⟨fun hbusy => ?_, fun hok => absurd rfl (hok i kind reason)⟩
      refine absurd ?_ (hbusy i jobId)
      rw [noChild_loops, update_self]
  | enqueue jobId =>
      refine ⟨fun _ => by simp [findsChild], fun _ => ?_⟩
      unfold PlotPool.enqueue
      dsimp only
      split <;> exact h
  | close => exact ⟨fun _ => by simp [findsChild], fun _ => h⟩
  | turn i _ _ _ _ ha =>
      refine ⟨fun _ => ?_, fun _ => turn_busy fun k job _ => h k job⟩
      rcases ha with rfl | rfl <;> simp [findsChild]
  | settled i _ outcome result _ _ _ hresult =>
      refine ⟨fun _ k kind reason heq => hresult kind reason (PlotAction.sent.inj heq).2, fun _ => ?_⟩
      refine turn_busy fun k job hk => ?_
      rw [show (leave i (settle _ outcome p)).loops k = p.loops k from update_of_ne hk _ _]
      exact h k job
  | paused i jobId _ _ hpausing => exact absurd hpausing (h i jobId)
  | cancelled i _ _ _ =>
      refine ⟨fun _ => by simp [findsChild], fun _ k job => ?_⟩
      rw [cancelled_loops]
      by_cases hk : k = i
      · rw [hk, update_self]
        simp
      · rw [update_of_ne hk]
        exact h k job

/-- **Plot state is truthful**, with at least one flight, in every run in which every plot
command finds a child; and a command that finds none leaves a state that is not.  In any
state of any run it is so exactly while no loop is in its pause after a loss. -/
theorem plot_state_truthful (h : plotSystem.Reach System.always p) (hflights : p.queue.flights ≠ 0) :
    (plotSystem.Reach findsChild p → p.Truthful) ∧
    (p.Truthful ↔ ∀ i jobId, p.loops i ≠ .pausing jobId) ∧
    (p.Truthful → ∀ a p', p.next a = some p' → (p'.Truthful ↔ findsChild p a p')) := by
  have hstate : ∀ {q : PlotPool}, plotSystem.Reach System.always q → q.queue.flights ≠ 0 →
      (q.Truthful ↔ q.Busy) := by
    intro q hq hqflights
    rw [truthful_iff (reach_good hq).shape]
    exact ⟨And.right, fun hbusy => ⟨hqflights, hbusy⟩⟩
  refine ⟨fun hfound => (hstate h hflights).mpr ?_, hstate h hflights, fun htrue a p' hstep => ?_⟩
  · refine hfound.invariant ?_ fun p a p' hp hok hstep => (hp.next hstep).mpr hok
    intro _ hc
    obtain ⟨flights, rfl⟩ := hc
    exact fun _ _ => by simp [started]
  · have hbusy := (hstate h hflights).mp htrue
    have hnext := hstate (.step h trivial hstep) (by
      rw [next_flights hstep]
      exact hflights)
    exact hnext.trans (hbusy.next hstep)

/-- A check that a command found a child. -/
def foundChild : PlotAction → Bool
  | .sent _ (.noChild _ _) => false
  | _ => true

/-- The queue says what is drawn while a job is drawn. -/
theorem plot_state_truthful_drawing :
    ∃ p : PlotPool, p.Sends 0 "job" ∧ p.queue.flights ≠ 0 ∧ p.Truthful := by
  obtain ⟨p, hp, hsends, hflights⟩ : ∃ p : PlotPool,
      System.followWhen (fun _ => foundChild) PlotPool.next [.enqueue "job", .begin 0] (started 1) =
        some p ∧ p.Sends 0 "job" ∧ p.queue.flights = 1 :=
    ⟨_, rfl, rfl, rfl⟩
  have hreach : plotSystem.Reach findsChild p := by
    refine System.Reach.followWhen (M := plotSystem) (fun _ _ _ h => h) ?_ (.init ⟨1, rfl⟩) hp
    intro q a q' hfound i kind reason heq
    subst heq
    exact absurd hfound (by simp [foundChild])
  have hpositive : p.queue.flights ≠ 0 := by
    rw [hflights]
    simp
  have hany : plotSystem.Reach System.always p := hreach.mono fun _ _ _ _ _ _ => trivial
  exact ⟨p, hsends, hpositive, (plot_state_truthful hany hpositive).1 hreach⟩

/-- A job is taken, and finds no child for the sixth time. -/
def benchGivenUp : List PlotAction :=
  let lost := PlotAction.sent 0 (.noChild "CoordinatorUnavailable" "degraded")
  [.enqueue "job", .begin 0, lost, .paused 0, lost, .paused 0, lost, .paused 0, lost, .paused 0,
    lost, .paused 0, lost]

/-- **An untruthful state.**  The job's error has been recorded, nothing waits and nothing
is drawn, and the queue says that it is drawn and does not take it. -/
theorem untruthful_plot_state :
    ∃ p : PlotPool, plotSystem.Reach System.always p ∧ p.queue.errors.get? "job" ≠ none ∧
      p.queue.stack = [] ∧ (p.queue.enqueue "job").2 = false ∧ ¬ p.Truthful := by
  obtain ⟨p, hp, herror, hstack, hrefused, hdrawing, hloop⟩ : ∃ p : PlotPool,
      System.follow PlotPool.next benchGivenUp (started 1) = some p ∧
        (p.queue.errors.get? "job").isSome = true ∧ p.queue.stack = [] ∧
        (p.queue.enqueue "job").2 = false ∧ p.queue.drawing 0 = some "job" ∧
        p.loops 0 = .pausing "job" :=
    ⟨_, rfl, rfl, rfl, rfl, rfl, rfl⟩
  refine ⟨p, follow_reach hp, Option.isSome_iff_ne_none.mp herror, hstack, hrefused, fun htrue => ?_⟩
  exact absurd (hloop.symm.trans ((htrue.1 0 "job").mp hdrawing)) (by simp)

/-! ### Newest first

The stack is in order of arrival as long as each job is put on top when it arrives.  A job that is
put back arrived earlier; if it is put on top of one that arrived since, the order is lost, and the
next turn takes the older of the two.
-/

/-- When the job was last accepted. -/
def stamp (p : PlotPool) (jobId : JobId) : Nat :=
  ((p.tickets jobId).head?.map Ticket.number).getD 0

/-- The job on top of the stack was accepted after all that wait below it. -/
def NewestOnTop (p : PlotPool) : Prop :=
  p.closing = false → ∀ jobId rest, p.queue.stack = jobId :: rest →
    ∀ other ∈ rest, p.stamp other < p.stamp jobId

/-- Runs in which a job is put back only on top of jobs that were accepted before it. -/
def putsBackNewer (p : PlotPool) (a : PlotAction) (_ : PlotPool) : Prop :=
  ∀ i jobId, p.PutsBack a i jobId → ∀ other ∈ p.queue.stack, p.stamp other < p.stamp jobId

/-- The stack is in the order in which its jobs were accepted. -/
def Sorted (p : PlotPool) : Prop :=
  p.closing = false → p.queue.stack.Pairwise fun jobId other => p.stamp other < p.stamp jobId

/-- Then the job on top is the newest. -/
theorem Sorted.newest (h : p.Sorted) : p.NewestOnTop := by
  intro hopen jobId rest hstack
  have hsorted := h hopen
  rw [hstack] at hsorted
  exact (List.pairwise_cons.mp hsorted).1

/-- Only the stack and the numbers of the last tickets are looked at. -/
theorem Sorted.congr (h : p.Sorted) (hstack : p'.queue.stack = p.queue.stack)
    (hstamp : ∀ jobId, p'.stamp jobId = p.stamp jobId) (hclosing : p'.closing = p.closing) :
    p'.Sorted := by
  intro hopen
  rw [hstack]
  refine (h (hclosing.symm.trans hopen)).imp fun {jobId other} hlt => ?_
  rw [hstamp, hstamp]
  exact hlt

/-- What is noted on a ticket is not when it was given out. -/
theorem stamp_note {g : Ticket → Ticket} (hg : ∀ t, (g t).number = t.number) (other : JobId) :
    (p.note jobId g).stamp other = p.stamp other := by
  show ((update p.tickets jobId _ other).head?.map _).getD 0 = _
  by_cases ho : other = jobId
  · subst ho
    rw [update_self]
    unfold stamp
    cases p.tickets other with
    | nil => rfl
    | cons t rest => exact hg t
  · rw [update_of_ne ho]
    rfl

/-- A turn changes no job's number, -/
theorem stamp_turn (hs : p.Shape) (other : JobId) : (p.turn i).stamp other = p.stamp other := by
  cases hstack : p.queue.stack with
  | nil =>
      rw [Shape.turn_nil hstack]
      rfl
  | cons job rest =>
      rw [hs.turn_cons hstack]
      exact stamp_note (g := fun t => { t with sends := t.sends + 1 }) (fun _ => rfl) other

/-- and neither does an end. -/
theorem stamp_settle {outcome : PlotOutcome} (other : JobId) :
    ((p.settle jobId outcome).leave i).stamp other = p.stamp other :=
  stamp_note (g := fun t => { t with outcomes := outcome :: t.outcomes }) (fun _ => rfl) other

theorem Sorted.settle_leave {outcome : PlotOutcome} (h : p.Sorted) :
    ((p.settle jobId outcome).leave i).Sorted := by
  refine h.congr ?_ stamp_settle rfl
  cases outcome <;> rfl

/-- The top is taken off, and the others stay in order. -/
theorem Sorted.turn (h : p.Sorted) (hs : p.Shape) : (p.turn i).Sorted := by
  cases hstack : p.queue.stack with
  | nil =>
      rw [Shape.turn_nil hstack]
      exact fun _ => List.Pairwise.nil
  | cons job rest =>
      have hbelow : ({ p with queue := { p.queue with stack := rest } } : PlotPool).Sorted := by
        intro hopen
        have hsorted := h hopen
        rw [hstack] at hsorted
        exact (List.pairwise_cons.mp hsorted).2
      refine hbelow.congr ?_ (stamp_turn hs) ?_
      · rw [hs.turn_cons hstack]
        rfl
      · rw [hs.turn_cons hstack]
        rfl

/-- The job a loop takes in its turn was accepted after all that wait. -/
theorem turn_takes {k : Nat} (h : p.Sorted) (hs : p.Shape) (hopen : p.closing = false)
    (hsends : (p.turn i).Sends k jobId) (hnot : ¬ p.Sends k jobId) :
    ∀ other ∈ (p.turn i).queue.stack, (p.turn i).stamp other < (p.turn i).stamp jobId := by
  intro other hother
  rw [stamp_turn hs, stamp_turn hs]
  cases hstack : p.queue.stack with
  | nil =>
      rw [Shape.turn_nil hstack] at hother
      exact absurd hother List.not_mem_nil
  | cons job rest =>
      rw [hs.turn_cons hstack] at hother hsends
      rcases (sends_goto rfl k).mp hsends with ⟨_, hstate⟩ | ⟨_, hbefore⟩
      · obtain rfl := DrainState.sending.inj hstate
        exact h.newest hopen job rest hstack other hother
      · exact absurd hbefore hnot

/-- The step lemma. -/
theorem Sorted.next {a : PlotAction} (h : p.Sorted) (hgood : p.Good) (hok : putsBackNewer p a p')
    (hstep : p.next a = some p') : p'.Sorted := by
  have hm := next_moves hstep
  cases hm with
  | enqueue jobId =>
      rcases enqueue_cases p jobId with hrefused | ⟨hflights, hfresh⟩
      · rw [hrefused]
        exact h
      have hnot : jobId ∉ p.queue.stack :=
        fun hmem => hfresh (Or.inl ((hgood.shape.queued jobId).mpr hmem))
      rw [enqueue_accepted hflights hfresh]
      intro hopen
      have hstamp : ∀ other ∈ p.queue.stack, ∀ v : List Ticket,
          (((update p.tickets jobId v) other).head?.map Ticket.number).getD 0 = p.stamp other := by
        intro other hother v
        rw [update_of_ne fun heq => hnot (by rw [← heq]; exact hother)]
        rfl
      refine List.pairwise_cons.mpr ⟨fun other hother => ?_, ?_⟩
      · show (((update p.tickets jobId _) other).head?.map Ticket.number).getD 0 <
          (((update p.tickets jobId _) jobId).head?.map Ticket.number).getD 0
        rw [hstamp other hother, update_self]
        show p.stamp other < p.accepted
        obtain ⟨t, rest, ht⟩ :=
          List.exists_cons_of_ne_nil ((hgood.accounts other).known (Or.inl hother))
        unfold stamp
        rw [ht]
        exact ((hgood.accounts other).bounded t (by rw [ht]; exact List.mem_cons_self ..)).2
      · refine (h hopen).imp_of_mem fun {job other} hjob hother hlt => ?_
        show (((update p.tickets jobId _) other).head?.map Ticket.number).getD 0 <
          (((update p.tickets jobId _) job).head?.map Ticket.number).getD 0
        rw [hstamp other hother, hstamp job hjob]
        exact hlt
  | close => exact fun hopen => absurd hopen (by simp)
  | turn => exact h.turn hgood.shape
  | settled i jobId outcome _ _ hi hsends =>
      exact h.settle_leave.turn (hgood.settle_leave hi hsends).shape
  | noChild i jobId kind reason hopen _ hsends =>
      by_cases htries : plotMaxRetries ≤ p.queue.retries jobId + 1
      · unfold PlotPool.noChild
        dsimp only
        rw [if_pos htries]
        exact h.congr rfl (stamp_note (g := fun t => { t with outcomes := _ :: t.outcomes })
          fun _ => rfl) rfl
      · have hputs : p.PutsBack (.sent i (.noChild kind reason)) i jobId :=
          ⟨⟨kind, reason, rfl⟩, hsends, Nat.lt_of_not_le htries⟩
        obtain ⟨hstack, _, htickets, _⟩ := hputs.next hstep
        intro _
        rw [hstack]
        unfold stamp
        rw [htickets]
        exact List.pairwise_cons.mpr ⟨hok i jobId hputs, h hopen⟩
  | paused i jobId _ hi hpausing => exact Sorted.turn h (hgood.leave hi hpausing).shape
  | cancelled i hclosing =>
      intro hopen
      exact absurd (hopen.symm.trans (cancelled_stays.closing.trans hclosing)) (by simp)

/-- What a step takes was accepted after all that wait. -/
theorem Sorted.takes {a : PlotAction} (h : p.Sorted) (hgood : p.Good) (hstep : p.next a = some p')
    (hsends : p'.Sends i jobId) (hnot : ¬ p.Sends i jobId) :
    ∀ other ∈ p'.queue.stack, p'.stamp other < p'.stamp jobId := by
  have hm := next_moves hstep
  cases hm with
  | turn _ _ hopen => exact turn_takes h hgood.shape hopen hsends hnot
  | settled k job outcome _ hopen hi hsends' =>
      have hloops : ((p.settle job outcome).leave k).loops = update p.loops k .top := rfl
      exact turn_takes h.settle_leave (hgood.settle_leave hi hsends').shape hopen hsends
        (not_sends_goto hloops (by simp) hnot)
  | paused k job hopen hi hpausing =>
      have hloops : (p.leave k).loops = update p.loops k .top := rfl
      exact turn_takes (p := p.leave k) h (hgood.leave hi hpausing).shape hopen hsends
        (not_sends_goto hloops (by simp) hnot)
  | enqueue job =>
      refine absurd ?_ hnot
      unfold PlotPool.enqueue at hsends
      dsimp only at hsends
      split at hsends <;> exact hsends
  | close => exact absurd hsends hnot
  | noChild => exact absurd hsends (not_sends_goto noChild_loops (by simp) hnot)
  | cancelled => exact absurd hsends (not_sends_goto cancelled_loops (by simp) hnot)

/-- **Newest first**, in every run in which a job is put back only on top of jobs that were
accepted before it: what a flight takes was accepted after all that wait.  A step that puts
one back on top of a newer one leaves the older one to be taken next. -/
theorem newest_first (h : plotSystem.Reach putsBackNewer p) :
    (∀ a p' i jobId, p.next a = some p' → p'.Sends i jobId → ¬ p.Sends i jobId →
      ∀ other ∈ p'.queue.stack, p'.stamp other < p'.stamp jobId) ∧
    ∀ a p', p.next a = some p' → (p'.NewestOnTop ↔ putsBackNewer p a p') := by
  have hsorted : p.Sorted := by
    refine h.invariant' ?_ fun p a p' hr hp hok hstep => hp.next (reach_good hr) hok hstep
    intro _ hc
    obtain ⟨flights, rfl⟩ := hc
    exact fun _ => List.Pairwise.nil
  have hgood := reach_good h
  refine ⟨fun a p' i jobId hstep => hsorted.takes hgood hstep,
    fun a p' hstep => ⟨fun htop i jobId hputs => ?_,
      fun hok => (hsorted.next hgood hok hstep).newest⟩⟩
  obtain ⟨hstack, _, htickets, hopen⟩ := hputs.next hstep
  intro other hother
  have hlt := htop hopen jobId _ hstack other hother
  unfold stamp at hlt ⊢
  rw [htickets] at hlt
  exact hlt

theorem putsNothingBack_newer {a : PlotAction} (h : p.putsNothingBack a = true) :
    putsBackNewer p a p' := by
  intro i jobId hc other hother
  obtain ⟨⟨kind, reason, rfl⟩, _⟩ := hc
  have hboth : p.queue.stack.isEmpty = true ∧ decide (p.queue.wake.waiters = ∅) = true :=
    Bool.and_eq_true_iff.mp h
  rw [List.isEmpty_iff.mp hboth.1] at hother
  exact absurd hother List.not_mem_nil

/-- A job is put back on an empty stack, and another one comes in before the pause is over. -/
def benchNewer : List PlotAction :=
  [.enqueue "old", .begin 0, .sent 0 (.noChild "CoordinatorLost" "gone"), .enqueue "new"]

/-- The flight goes on with the newer of them. -/
theorem newest_first_after_pause :
    ∃ p p' : PlotPool, p.next (.paused 0) = some p' ∧ p'.Sends 0 "new" ∧
      p'.queue.stack = ["old"] ∧ p'.stamp "old" < p'.stamp "new" := by
  obtain ⟨p, p', hp, hstep, hsends, hnot, hstack⟩ : ∃ p p' : PlotPool,
      System.followWhen putsNothingBack PlotPool.next benchNewer (started 1) = some p ∧
        p.next (.paused 0) = some p' ∧ p'.Sends 0 "new" ∧ p.loops 0 = .pausing "old" ∧
        p'.queue.stack = ["old"] :=
    ⟨_, _, rfl, rfl, rfl, rfl, rfl⟩
  have hcheck : ∀ p a p', putsNothingBack p a = true → putsBackNewer p a p' :=
    fun _ _ _ h => putsNothingBack_newer h
  have hreach := System.Reach.followWhen (M := plotSystem) (fun _ _ _ h => h) hcheck (.init ⟨1, rfl⟩) hp
  refine ⟨p, p', hstep, hsends, hstack, (newest_first hreach).1 (.paused 0) p' 0 "new" hstep hsends
    (fun hbefore => ?_) "old" (by rw [hstack]; exact List.mem_cons_self ..)⟩
  exact absurd (hnot.symm.trans hbefore) (by simp)

/-- **An older job is taken first.**  It was taken before the newer one came in, put back on
top of it, and taken again. -/
theorem older_job_first :
    ∃ p p' : PlotPool, plotSystem.Reach System.always p ∧ p.next (.paused 0) = some p' ∧
      p'.Sends 0 "old" ∧ ¬ p.Sends 0 "old" ∧ "new" ∈ p'.queue.stack ∧
      p'.stamp "old" < p'.stamp "new" := by
  obtain ⟨p, p', hp, hstep, hsends, hpausing, hstack, hold, hnew⟩ : ∃ p p' : PlotPool,
      System.follow PlotPool.next [.enqueue "old", .begin 0, .enqueue "new",
        .sent 0 (.noChild "CoordinatorLost" "gone")] (started 1) = some p ∧
        p.next (.paused 0) = some p' ∧ p'.Sends 0 "old" ∧ p.loops 0 = .pausing "old" ∧
        p'.queue.stack = ["new"] ∧ p'.stamp "old" = 0 ∧ p'.stamp "new" = 1 :=
    ⟨_, _, rfl, rfl, rfl, rfl, rfl, rfl, rfl⟩
  refine ⟨p, p', follow_reach hp, hstep, hsends, fun hbefore => ?_, ?_, by omega⟩
  · exact absurd (hpausing.symm.trans hbefore) (by simp)
  · rw [hstack]
    exact List.mem_cons_self ..

end PlotPool

end DonutServer
