/-
Left alone, the queue drains.

The measure is what the loops may still have to do.  A job that waits is worth three steps for
each attempt it has left, a job that is drawn one less, and a loop that neither draws nor
sleeps one.  Every step of a loop lowers it: taking a job lowers what the job is worth, losing
its child costs the job an attempt, and a loop that finds nothing goes to sleep.

A loop that puts a job back wakes nobody, and need not: it looks at the stack itself when its
pause is over, so the stack holds nothing once every loop sleeps.

What a command comes to is left open all the while: an answer, an exception or no child, in any
order.  The bound holds whatever comes, because each of these lowers the measure.
-/
import Mathlib.Algebra.Group.Action.Defs
import Mathlib.Algebra.GroupWithZero.Nat
import Mathlib.Algebra.Order.BigOperators.Group.Finset
import DonutServer.Lib.Measure
import DonutServer.Plots.Conserve

namespace DonutServer

open Function

/-- A step that a drain loop takes by itself. -/
def PlotAction.isLoop : PlotAction → Bool
  | .begin _ | .awake _ | .sent _ _ | .paused _ => true
  | .enqueue _ | .close | .cancelled _ => false

namespace PlotPool

/-- The steps a job that waits is worth. -/
def worth (p : PlotPool) (jobId : JobId) : Nat := 3 * (plotMaxRetries - p.queue.retries jobId)

/-- What a loop may still have to do. -/
def effortOf (p : PlotPool) (i : Nat) : Nat :=
  match p.loops i with
  | .top => 1
  | .waiting => if i ∈ p.queue.wake.waiters then 0 else 1
  | .sending jobId => p.worth jobId - 1
  | .pausing _ => 1
  | .ended => 0

/-- The measure. -/
def effort (p : PlotPool) : Nat :=
  (p.queue.stack.map p.worth).sum + ∑ i ∈ Finset.range p.queue.flights, p.effortOf i

/-- No loop has ended, and where something waits some loop does not sleep. -/
structure Manned (p : PlotPool) : Prop where
  live : ∀ i, p.loops i ≠ .ended
  awake : p.queue.stack ≠ [] → ∃ i, i < p.queue.flights ∧ i ∉ p.queue.wake.waiters

variable {p p' q : PlotPool} {i : Nat} {jobId : JobId} {a : PlotAction}

/-! ### One loop's part of the measure

The three steps that a waiting job is worth for each attempt are its being taken, its command's end
and the pause after it.  A job whose command is out has the first of them behind it.
-/

theorem effortOf_sending (hsends : p.loops i = .sending jobId) :
    p.effortOf i = p.worth jobId - 1 := by
  unfold effortOf
  rw [hsends]

theorem effortOf_pausing (hpausing : p.loops i = .pausing jobId) : p.effortOf i = 1 := by
  unfold effortOf
  rw [hpausing]

theorem effortOf_top (htop : p.loops i = .top) : p.effortOf i = 1 := by
  unfold effortOf
  rw [htop]

/-- A job that may be put back once more is worth another round. -/
theorem worth_pos (h : p.queue.retries jobId < plotMaxRetries) : 3 ≤ p.worth jobId := by
  unfold worth
  omega

/-- No job is worth more than all of its attempts. -/
theorem worth_le : p.worth jobId ≤ 18 := by
  unfold worth plotMaxRetries
  omega

theorem effortOf_le : p.effortOf i ≤ 17 := by
  unfold effortOf
  split
  · omega
  · split <;> omega
  · rename_i jobId _
    have hworth : p.worth jobId ≤ 18 := worth_le
    omega
  · omega
  · omega

/-- The measure is bounded by what waits and by the number of flights. -/
theorem effort_le : p.effort ≤ 18 * p.queue.stack.length + 17 * p.queue.flights := by
  unfold effort
  refine Nat.add_le_add ?_ ?_
  · have hsum := List.sum_le_card_nsmul (p.queue.stack.map p.worth) 18 fun n hn => by
      obtain ⟨jobId, -, rfl⟩ := List.mem_map.mp hn
      exact worth_le
    rw [List.length_map, smul_eq_mul] at hsum
    omega
  · refine (Finset.sum_le_card_nsmul _ p.effortOf 17 fun i _ => effortOf_le).trans ?_
    rw [Finset.card_range, smul_eq_mul, Nat.mul_comm]

/-- Loop `i` goes on, and the other loops have to do what they had to. -/
theorem effort_goto {n m : Nat} (hi : i < p.queue.flights)
    (hflights : p'.queue.flights = p.queue.flights)
    (hstack : (p'.queue.stack.map p'.worth).sum + n = (p.queue.stack.map p.worth).sum + m)
    (hothers : ∀ k, k ≠ i → p'.effortOf k = p.effortOf k)
    (hless : m + p'.effortOf i < n + p.effortOf i) : p'.effort < p.effort := by
  have hsum := System.sum_range_change hi hothers
  unfold effort
  rw [hflights]
  omega

/-- A loop that is where it was has to do what it had to. -/
theorem effortOf_same {k : Nat} (hloop : p'.loops k = p.loops k)
    (hwaiters : k ∈ p'.queue.wake.waiters ↔ k ∈ p.queue.wake.waiters)
    (hworth : ∀ job, p.Sends k job → p'.worth job = p.worth job) :
    p'.effortOf k = p.effortOf k := by
  unfold effortOf
  rw [hloop]
  cases hstate : p.loops k with
  | waiting => exact if_congr hwaiters rfl rfl
  | sending job => exact congrArg (· - 1) (hworth job hstate)
  | _ => rfl

/-! ### The steps of a loop

For each branch of a loop, what the measure is afterwards.  A pause that ends is no step of its own
here: the loop goes on to its next turn at once, and that lowers it.
-/

/-- A loop takes its turn: it goes to sleep, or takes a job off the stack. -/
theorem effort_turn (hs : p.Shape) (hi : i < p.queue.flights) (hone : p.effortOf i = 1) :
    (p.turn i).effort < p.effort := by
  cases hstack : p.queue.stack with
  | nil =>
      rw [Shape.turn_nil hstack]
      refine effort_goto (n := 0) (m := 0) hi rfl ?_ (fun k hk => ?_) ?_
      · rw [hstack]
        rfl
      · refine effortOf_same (update_of_ne hk _ _) ?_ fun _ _ => rfl
        show k ∈ (p.queue.wake.clear.wait i).waiters ↔ _
        rw [Event.clear_wait_waiters, Finset.mem_insert, or_iff_right hk]
      · have hasleep : i ∈ (p.queue.wake.clear.wait i).waiters := by
          rw [Event.clear_wait_waiters]
          exact Finset.mem_insert_self i _
        have hzero : ∀ {q : PlotPool}, q.loops i = .waiting → i ∈ q.queue.wake.waiters →
            q.effortOf i = 0 := by
          intro q hloop hmem
          unfold effortOf
          rw [hloop]
          exact if_pos hmem
        rw [hone, hzero (update_self _ _ _) hasleep]
        decide
  | cons job rest =>
      rw [hs.turn_cons hstack]
      refine effort_goto (n := p.worth job) (m := 0) hi rfl ?_ (fun k hk => ?_) ?_
      · rw [hstack, List.map_cons, List.sum_cons, Nat.add_zero, Nat.add_comm]
        rfl
      · exact effortOf_same (update_of_ne hk _ _) Iff.rfl fun _ _ => rfl
      · rw [hone, effortOf_sending (update_self _ _ _)]
        show 0 + (p.worth job - 1) < p.worth job + 1
        omega

/-- A job has ended, and its loop goes on to `state`. -/
theorem Good.effort_settled {state : DrainState} (h : p.Good) (hopen : p.closing = false)
    (hi : i < p.queue.flights) (hsends : p.Sends i jobId)
    (hloops : p'.loops = update p.loops i state)
    (hstate : state = .top ∨ state = .pausing jobId)
    (hqueue : (p'.queue.flights, p'.queue.stack, p'.queue.wake) =
      (p.queue.flights, p.queue.stack, p.queue.wake))
    (hretries : p'.queue.retries = update p.queue.retries jobId 0) : p'.effort < p.effort := by
  simp only [Prod.mk.injEq] at hqueue
  obtain ⟨hflights, hstack, hwake⟩ := hqueue
  have hworth : ∀ job, job ≠ jobId → p'.worth job = p.worth job := by
    intro job hne
    unfold worth
    rw [hretries, update_of_ne hne]
  refine effort_goto (n := 0) (m := 0) hi hflights ?_ (fun k hk => ?_) ?_
  · rw [hstack]
    refine congrArg (List.sum · + 0) (List.map_congr_left fun job hjob => hworth job ?_)
    intro heq
    exact h.shape.unsent i jobId hsends (heq ▸ hjob)
  · refine effortOf_same ?_ (by rw [hwake]) fun job hjob => hworth job ?_
    · rw [hloops, update_of_ne hk]
    · intro heq
      exact hk (h.shape.alone k i jobId (heq ▸ hjob) hsends)
  · have hloop : p'.loops i = state := by
      rw [hloops, update_self]
    have hone : p'.effortOf i = 1 := by
      rcases hstate with rfl | rfl
      · exact effortOf_top hloop
      · exact effortOf_pausing hloop
    have hbig : 3 ≤ p.worth jobId := worth_pos ((h.accounts jobId).few hopen)
    rw [hone, effortOf_sending hsends]
    omega

/-- A job found no child: it has an attempt less, or has ended. -/
theorem Good.effort_noChild {kind reason : String} (h : p.Good) (hopen : p.closing = false)
    (hi : i < p.queue.flights) (hsends : p.Sends i jobId) :
    (p.noChild i jobId kind reason).effort < p.effort := by
  unfold PlotPool.noChild
  dsimp only
  split
  next => exact h.effort_settled hopen hi hsends rfl (Or.inr rfl) rfl rfl
  next htries =>
    generalize hback : goto i (.pausing jobId) (withQueue _ p) = back
    have hworth : back.worth jobId + 3 = p.worth jobId := by
      rw [← hback]
      show 3 * (plotMaxRetries - update p.queue.retries jobId _ jobId) + 3 = _
      rw [update_self]
      unfold worth
      omega
    have hothers : ∀ job, job ≠ jobId → back.worth job = p.worth job := by
      intro job hne
      rw [← hback]
      show 3 * (plotMaxRetries - update p.queue.retries jobId _ job) = _
      rw [update_of_ne hne]
      rfl
    have hloop : back.loops = update p.loops i (.pausing jobId) := by
      rw [← hback]
      rfl
    refine effort_goto (n := 3) (m := p.worth jobId) hi (by rw [← hback]; rfl) ?_ (fun k hk => ?_)
      ?_
    · have hstack : back.queue.stack = jobId :: p.queue.stack := by
        rw [← hback]
        rfl
      have hrest : p.queue.stack.map back.worth = p.queue.stack.map p.worth :=
        List.map_congr_left fun job hjob => hothers job fun heq =>
          h.shape.unsent i jobId hsends (heq ▸ hjob)
      rw [hstack, List.map_cons, List.sum_cons, hrest]
      omega
    · have hsame : back.loops k = p.loops k := by rw [hloop, update_of_ne hk]
      refine effortOf_same hsame (by rw [← hback]; rfl) fun job hjob => ?_
      exact hothers job fun heq => hk (h.shape.alone k i jobId (heq ▸ hjob) hsends)
    · rw [effortOf_pausing (by rw [hloop, update_self]), effortOf_sending hsends]
      omega

/-- The end of a pause alone changes nothing. -/
theorem effort_leave (hi : i < p.queue.flights) (hpausing : p.loops i = .pausing jobId) :
    (p.leave i).effort = p.effort := by
  have hsum := System.sum_range_change (f := p.effortOf) (g := (p.leave i).effortOf) hi fun k hk =>
    effortOf_same (update_of_ne hk _ _) Iff.rfl fun _ _ => rfl
  rw [effortOf_pausing hpausing, effortOf_top (update_self _ _ _)] at hsum
  exact congrArg (_ + ·) (Nat.add_right_cancel hsum)

/-- **Every step of a loop lowers the measure.** -/
theorem Good.effort_next (h : p.Good) (hopen : p.closing = false) (hloop : a.isLoop = true)
    (hstep : p.next a = some p') : p'.effort < p.effort := by
  have hm := next_moves hstep
  cases hm with
  | enqueue => exact absurd hloop (by simp [PlotAction.isLoop])
  | close => exact absurd hloop (by simp [PlotAction.isLoop])
  | turn i a _ hi hidle =>
      refine effort_turn h.shape hi ?_
      rcases hidle with htop | ⟨hwaiting, hawake⟩
      · exact effortOf_top htop
      · unfold effortOf
        rw [hwaiting]
        exact if_neg hawake
  | settled i jobId outcome result _ hi hsends =>
      have hleft : ((p.settle jobId outcome).leave i).effort < p.effort := by
        refine h.effort_settled hopen hi hsends rfl (Or.inl rfl) ?_ ?_ <;> cases outcome <;> rfl
      have htop : ((p.settle jobId outcome).leave i).effortOf i = 1 :=
        effortOf_top (update_self _ _ _)
      refine (effort_turn (h.settle_leave hi hsends).shape ?_ htop).trans hleft
      cases outcome <;> exact hi
  | noChild i jobId kind reason _ hi hsends => exact h.effort_noChild hopen hi hsends
  | paused i jobId _ hi hpausing =>
      rw [← effort_leave hi hpausing]
      exact effort_turn (h.leave hi hpausing).shape hi (effortOf_top (update_self _ _ _))
  | cancelled => exact absurd hloop (by simp [PlotAction.isLoop])

/-! ### Somebody is awake

That the measure is lowered says nothing where no step can be taken.  So it has to be shown too
that a job which waits finds a loop that can: a loop goes to sleep when the stack is empty, and one
that puts a job back is itself awake.
-/

/-- After a step of its own a loop sleeps only if the stack is empty. -/
theorem Manned.moved (hs : p'.Shape) (hi : i < p'.queue.flights)
    (hlive : ∀ k, p'.loops k ≠ .ended)
    (hloop : p'.queue.stack = [] ∨ p'.loops i ≠ .waiting) : p'.Manned := by
  refine ⟨hlive, fun hstack => ⟨i, hi, fun hmem => ?_⟩⟩
  rcases hloop with hnil | hnot
  · exact hstack hnil
  · exact hnot (hs.asleep i hmem)

/-- A loop that takes its turn sleeps only if it found nothing. -/
theorem Manned.turn (hs : q.Shape) (hgood : (q.turn i).Good) (hi : i < q.queue.flights)
    (hlive : ∀ k, k ≠ i → q.loops k ≠ .ended) : (q.turn i).Manned := by
  have hflights : (q.turn i).queue.flights = q.queue.flights := turn_stays.flights
  have hloops : ∃ state, (q.turn i).loops = update q.loops i state ∧ state ≠ .ended ∧
      ((q.turn i).queue.stack = [] ∨ state ≠ .waiting) := by
    cases hstack : q.queue.stack with
    | nil =>
        rw [Shape.turn_nil hstack]
        exact ⟨_, rfl, by simp, Or.inl rfl⟩
    | cons job rest =>
        rw [hs.turn_cons hstack]
        exact ⟨_, rfl, by simp, Or.inr (by simp)⟩
  obtain ⟨state, hloops, hended, hwaiting⟩ := hloops
  refine Manned.moved hgood.shape (i := i) (by rw [hflights]; exact hi) (fun k => ?_) ?_
  · rw [hloops]
    by_cases hk : k = i
    · rw [hk, update_self]
      exact hended
    · rw [update_of_ne hk]
      exact hlive k hk
  · rw [hloops, update_self]
    exact hwaiting

/-- One step, of a loop or of anybody else. -/
theorem Manned.next (h : p.Manned) (hgood : p.Good) (hopen : p'.closing = false)
    (hstep : p.next a = some p') : p'.Manned := by
  have hgood' := hgood.next hstep
  have hm := next_moves hstep
  cases hm with
  | enqueue jobId =>
      rcases enqueue_cases p jobId with hrefused | ⟨hflights, hfresh⟩
      · rw [hrefused]
        exact h
      · rw [enqueue_accepted hflights hfresh]
        exact ⟨h.live, fun _ => ⟨0, Nat.pos_of_ne_zero hflights, Finset.notMem_empty 0⟩⟩
  | close => exact absurd hopen (by simp)
  | turn i a _ hi => exact Manned.turn hgood.shape hgood' hi fun k _ => h.live k
  | settled i jobId outcome result _ hi hsends =>
      refine Manned.turn (hgood.settle_leave hi hsends).shape hgood' ?_ fun k hk => ?_
      · cases outcome <;> exact hi
      · show update p.loops i _ k ≠ _
        rw [update_of_ne hk]
        exact h.live k
  | noChild i jobId kind reason _ hi hsends =>
      have hloop : (p.noChild i jobId kind reason).loops = update p.loops i (.pausing jobId) := by
        unfold PlotPool.noChild
        dsimp only
        split <;> rfl
      refine Manned.moved hgood'.shape (i := i) ?_ (fun k => ?_) ?_
      · rw [noChild_same.2]
        exact hi
      · rw [hloop]
        by_cases hk : k = i
        · rw [hk, update_self]
          simp
        · rw [update_of_ne hk]
          exact h.live k
      · rw [hloop, update_self]
        exact Or.inr (by simp)
  | paused i jobId _ hi hpausing =>
      refine Manned.turn (hgood.leave hi hpausing).shape hgood' hi fun k hk => ?_
      show update p.loops i _ k ≠ _
      rw [update_of_ne hk]
      exact h.live k
  | cancelled i hclosing =>
      have hclosed : (p.cancelled i).closing = true := cancelled_stays.closing.trans hclosing
      exact absurd (hopen.symm.trans hclosed) (by simp)

/-- A loop does not shut the queue down. -/
theorem isLoop_closing (hloop : a.isLoop = true) (hstep : p.next a = some p') :
    p'.closing = p.closing := by
  have hm := next_moves hstep
  cases hm with
  | enqueue => exact absurd hloop (by simp [PlotAction.isLoop])
  | close => exact absurd hloop (by simp [PlotAction.isLoop])
  | turn => exact turn_stays.closing
  | settled => exact turn_stays.closing
  | noChild => exact noChild_same.1
  | paused => exact turn_stays.closing
  | cancelled => exact absurd hloop (by simp [PlotAction.isLoop])

/-- Nothing undoes a shutdown. -/
theorem next_open (hopen : p'.closing = false) (hstep : p.next a = some p') :
    p.closing = false := by
  have hm := next_moves hstep
  cases hm with
  | enqueue => exact enqueue_stays.closing.symm.trans hopen
  | close => exact absurd hopen (by simp)
  | turn _ _ h => exact h
  | settled _ _ _ _ h => exact h
  | noChild _ _ _ _ h => exact h
  | paused _ _ h => exact h
  | cancelled => exact cancelled_stays.closing.symm.trans hopen

/-- So it is in every run that has not been shut down. -/
theorem reach_manned (h : plotSystem.Reach System.always p) (hopen : p.closing = false) :
    p.Manned := by
  induction h with
  | init hinit =>
      obtain ⟨flights, rfl⟩ := hinit
      exact ⟨fun _ => by simp [started], fun hstack => absurd rfl hstack⟩
  | @step p p' a hreach _ hstep ih =>
      exact (ih (next_open hopen hstep)).next (reach_good hreach) hopen hstep

/-! ### What is left in the end

The measure bounds the steps that the loops can still take.  When none is left they all sleep, so
the stack is empty, and every ticket has ended.
-/

/-- No loop can take a step. -/
def AtRest (p : PlotPool) : Prop := System.Stuck next (fun a => a.isLoop = true) p

/-- Where no loop can take a step nothing waits, and every loop sleeps. -/
theorem AtRest.sleeps (h : p.AtRest) (hopen : p.closing = false) (hmanned : p.Manned)
    (hi : i < p.queue.flights) : p.loops i = .waiting ∧ i ∈ p.queue.wake.waiters := by
  have hguard : ¬ (p.closing = true ∨ p.queue.flights ≤ i) := by
    rw [hopen]
    exact fun hc => hc.elim (by simp) (Nat.not_le_of_lt hi)
  cases hloop : p.loops i with
  | top =>
      have hbegin := h (.begin i) rfl
      simp only [PlotPool.next, if_neg hguard, hloop] at hbegin
      exact absurd hbegin (by simp)
  | waiting =>
      refine ⟨rfl, ?_⟩
      by_contra hawake
      have hgo := h (.awake i) rfl
      have hfree : ¬ (p.closing = true ∨ p.queue.flights ≤ i ∨ i ∈ p.queue.wake.waiters) :=
        fun hc => hc.elim (fun hc => hguard (Or.inl hc)) fun hc =>
          hc.elim (fun hc => hguard (Or.inr hc)) hawake
      simp only [PlotPool.next, if_neg hfree, hloop] at hgo
      exact absurd hgo (by simp)
  | sending jobId =>
      have hsent := h (.sent i (.raised "")) rfl
      simp only [PlotPool.next, if_neg hguard, hloop] at hsent
      exact absurd hsent (by simp)
  | pausing jobId =>
      have hpaused := h (.paused i) rfl
      simp only [PlotPool.next, if_neg hguard, hloop] at hpaused
      exact absurd hpaused (by simp)
  | ended => exact absurd hloop (hmanned.live i)

/-- Loops that all sleep can take no step. -/
theorem atRest_of_sleeps (hasleep : ∀ i, i < p.queue.flights →
    p.loops i = .waiting ∧ i ∈ p.queue.wake.waiters) : p.AtRest := by
  intro a hloop
  by_contra hgo
  obtain ⟨p', hstep⟩ := Option.ne_none_iff_exists'.mp hgo
  have hm := next_moves hstep
  cases hm with
  | enqueue => exact absurd hloop (by simp [PlotAction.isLoop])
  | close => exact absurd hloop (by simp [PlotAction.isLoop])
  | turn i a _ hi hidle =>
      obtain ⟨hwaiting, hmem⟩ := hasleep i hi
      rcases hidle with htop | ⟨-, hawake⟩
      · exact absurd (hwaiting.symm.trans htop) (by simp)
      · exact hawake hmem
  | settled i jobId _ _ _ hi hsends => exact absurd ((hasleep i hi).1.symm.trans hsends) (by simp)
  | noChild i jobId _ _ _ hi hsends => exact absurd ((hasleep i hi).1.symm.trans hsends) (by simp)
  | paused i jobId _ hi hpausing => exact absurd ((hasleep i hi).1.symm.trans hpausing) (by simp)
  | cancelled => exact absurd hloop (by simp [PlotAction.isLoop])

/-- Where no loop can take a step every accepted job has ended. -/
theorem AtRest.over (h : p.AtRest) (hopen : p.closing = false) (hgood : p.Good)
    (hmanned : p.Manned) : p.queue.stack = [] ∧ ∀ jobId t, t ∈ p.tickets jobId → t.Over := by
  have hstack : p.queue.stack = [] := by
    by_contra hne
    obtain ⟨i, hi, hawake⟩ := hmanned.awake hne
    exact hawake (h.sleeps hopen hmanned hi).2
  refine ⟨hstack, fun jobId t ht => ?_⟩
  have hidle : ¬ (jobId ∈ p.queue.stack ∨ ∃ i, p.Sends i jobId) := by
    rw [hstack]
    intro hlive
    rcases hlive with hmem | ⟨i, hi⟩
    · exact absurd hmem List.not_mem_nil
    · by_cases hlt : i < p.queue.flights
      · exact absurd ((h.sleeps hopen hmanned hlt).1.symm.trans hi) (by simp)
      · exact absurd ((hgood.shape.beyond i (Nat.le_of_not_lt hlt)).symm.trans hi) (by simp)
  obtain ⟨u, rest, htickets⟩ := List.exists_cons_of_ne_nil (List.ne_nil_of_mem ht)
  have hacc := hgood.accounts jobId
  rw [htickets] at ht
  rcases List.mem_cons.mp ht with rfl | hrest
  · exact (hacc.last t rest htickets).2 hidle
  · exact hacc.older t (by rw [htickets]; exact hrest)

/-- **The queue drains.**  From any state that a run gets to before a shutdown: however the
loops take their steps and whatever becomes of the commands, so many steps at most can follow
each other before another job comes in; and where no loop can take a step nothing is left on
the stack and every job that was ever accepted has come to its one end. -/
theorem plot_queue_drains (h : plotSystem.Reach System.always p) (hopen : p.closing = false)
    (l : List PlotAction) (hloops : ∀ a ∈ l, a.isLoop = true)
    (hfollow : System.follow next l p = some p') :
    l.length ≤ 18 * p.queue.stack.length + 17 * p.queue.flights ∧
    (p'.AtRest → p'.queue.stack = [] ∧ ∀ jobId t, t ∈ p'.tickets jobId → t.Over) := by
  have hstep : ∀ q a q', (plotSystem.Reach System.always q ∧ q.closing = false) →
      PlotAction.isLoop a = true → q.next a = some q' →
      (plotSystem.Reach System.always q' ∧ q'.closing = false) ∧ q'.effort < q.effort := by
    intro q a q' hq hloop hnext
    obtain ⟨hreach, hqopen⟩ := hq
    exact ⟨⟨.step hreach trivial hnext, (isLoop_closing hloop hnext).trans hqopen⟩,
      (reach_good hreach).effort_next hqopen hloop hnext⟩
  obtain ⟨⟨hreach, hopen'⟩, hlength⟩ :=
    System.follow_length hstep l ⟨h, hopen⟩ hloops hfollow
  refine ⟨?_, fun hrest => hrest.over hopen' (reach_good hreach) (reach_manned hreach hopen')⟩
  have hbound := p.effort_le
  omega

/-- One job comes in, its plots cannot be drawn, and the one loop goes to sleep. -/
theorem plot_queue_drains_one : ∃ p' : PlotPool,
    System.follow next [.begin 0, .sent 0 (.raised "boom")] ((started 1).enqueue "job") = some p' ∧
      ∀ t ∈ p'.tickets "job", t.Over := by
  obtain ⟨p', hp', hflights, hloop, hmem⟩ : ∃ p' : PlotPool,
      System.follow next [.begin 0, .sent 0 (.raised "boom")] ((started 1).enqueue "job") =
        some p' ∧ p'.queue.flights = 1 ∧ p'.loops 0 = .waiting ∧ 0 ∈ p'.queue.wake.waiters :=
    ⟨_, rfl, rfl, rfl, by decide⟩
  have hreach : plotSystem.Reach System.always ((started 1).enqueue "job") :=
    follow_reach (l := [.enqueue "job"]) rfl
  refine ⟨p', hp', ((plot_queue_drains hreach rfl _ (by decide) hp').2 ?_).2 "job"⟩
  refine atRest_of_sleeps fun i hi => ?_
  obtain rfl : i = 0 := by omega
  exact ⟨hloop, hmem⟩

end PlotPool

end DonutServer
