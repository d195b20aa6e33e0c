/-
How the queue, the flights and the directory hang together.

`Coupled` says, of one moment, what ties a call that waits to its loop, a child that draws to the
command it has taken, and an answer on its way to the figures it speaks of.  Each part is then
changed by itself: the queue goes on, a flight takes a step, or a loop calls its flight.

The queue is told of a figure by an answer alone, and the answer comes long after the files were
written.  So the chain is followed from its end: the files stand when the child has saved the last
of them, the answer is on its way from then on, and the job is noted as drawn when the answer
arrives.
-/
import DonutServer.Plots.Errors
import DonutServer.Plots.Loss
import DonutServer.Plots.Works

namespace DonutServer

open AtomicFile Function

/-! ### The queue

What a step of the queue means for one command: it is the step of one loop, which has the command
out or has not, and it ends the command with what has come of it.
-/

/-- The loop that takes a step, where one does. -/
def PlotAction.loop? : PlotAction → Option Nat
  | .begin i | .awake i | .sent i _ | .paused i | .cancelled i => some i
  | _ => none

namespace PlotPool

variable {p p' : PlotPool} {a : PlotAction} {i : Nat} {jobId : JobId}

theorem turn_loops : ∃ state, (p.turn i).loops = update p.loops i state := by
  unfold turn PlotQueue.take
  rcases PlotQueue.takeFrom p.queue.queued p.queue.stack with ⟨_ | job, rest⟩ <;> exact ⟨_, rfl⟩

/-- A step is one loop's at most. -/
theorem next_loops (h : p.next a = some p') :
    p'.loops = p.loops ∨ ∃ i state, a.loop? = some i ∧ p'.loops = update p.loops i state := by
  have hm := next_moves h
  cases hm with
  | enqueue jobId =>
      unfold PlotPool.enqueue
      dsimp only
      split <;> exact Or.inl rfl
  | close => exact Or.inl rfl
  | turn i a hopen hi hidle ha =>
      obtain ⟨state, hstate⟩ := turn_loops (p := p) (i := i)
      rcases ha with rfl | rfl <;> exact Or.inr ⟨i, state, rfl, hstate⟩
  | settled i jobId outcome =>
      obtain ⟨state, hstate⟩ := turn_loops (p := (p.settle jobId outcome).leave i) (i := i)
      refine Or.inr ⟨i, state, rfl, hstate.trans ?_⟩
      exact update_idem _ _ _
  | noChild => exact Or.inr ⟨_, _, rfl, noChild_loops⟩
  | paused i jobId =>
      obtain ⟨state, hstate⟩ := turn_loops (p := p.leave i) (i := i)
      exact Or.inr ⟨i, state, rfl, hstate.trans (update_idem _ _ _)⟩
  | cancelled => exact Or.inr ⟨_, _, rfl, cancelled_loops⟩

/-- A command stays out where another loop takes a step. -/
theorem next_sends (h : p.next a = some p') (hsends : p.Sends i jobId) (ha : a.loop? ≠ some i) :
    p'.Sends i jobId := by
  unfold Sends
  rcases next_loops h with hsame | ⟨k, state, hk, hloops⟩
  · rw [hsame]
    exact hsends
  · have hne : i ≠ k := fun heq => ha (by rw [hk, heq])
    rw [hloops, update_of_ne hne]
    exact hsends

/-- A loop that goes on by itself has no command out. -/
theorem next_idle (h : p.next a = some p') (ha : a = .begin i ∨ a = .awake i ∨ a = .paused i)
    (jobId : JobId) : ¬ p.Sends i jobId := by
  intro hsends
  have hm := next_moves h
  cases hm with
  | turn k a hopen hk hidle hturn =>
      have hki : k = i := by
        rcases hturn with rfl | rfl <;> simp_all
      subst hki
      rcases hidle with htop | ⟨hwaiting, -⟩
      · exact absurd (htop.symm.trans hsends) (by simp)
      · exact absurd (hwaiting.symm.trans hsends) (by simp)
  | paused k job hopen hk hpausing =>
      obtain rfl : k = i := by simpa using ha
      exact absurd (hpausing.symm.trans hsends) (by simp)
  | _ => simp at ha

/-- A job is known once it has been asked for. -/
theorem next_known (hg : p.Good) (h : p.next a = some p') (hknown : p'.fate jobId ≠ none) :
    p.fate jobId ≠ none ∨ a = .enqueue jobId := by
  have hended : ∀ {job outcomes}, p.fate job = some [] →
      p'.fate = update p.fate job (some outcomes) → p.fate jobId ≠ none := by
    intro job outcomes hopen hfate
    by_cases heq : jobId = job
    · rw [heq, hopen]
      simp
    · rwa [hfate, update_of_ne heq] at hknown
  have hm := next_moves h
  cases hm with
  | enqueue job =>
      rcases enqueue_cases p job with hrefused | ⟨hflights, hfresh⟩
      · rw [hrefused] at hknown
        exact Or.inl hknown
      · by_cases heq : jobId = job
        · exact Or.inr (by rw [heq])
        · rw [enqueue_accepted hflights hfresh] at hknown
          refine Or.inl fun hnone => hknown ?_
          show ((update p.tickets job _) jobId).head?.map _ = _
          rw [update_of_ne heq]
          exact hnone
  | close => exact Or.inl hknown
  | turn =>
      rw [fate_turn] at hknown
      exact Or.inl hknown
  | settled i job outcome result hopen hi hsends =>
      have hfate := hg.fate_open.mpr (Or.inr ⟨i, hsends⟩)
      exact Or.inl (hended hfate (fate_turn.trans (fate_settle hfate)))
  | noChild i job kind reason hopen hi hsends =>
      have hfate := hg.fate_open.mpr (Or.inr ⟨i, hsends⟩)
      rcases @errors_noChild p i job kind reason hfate with ⟨_, -, hafter⟩ | ⟨-, hafter⟩
      · exact Or.inl (hended hfate hafter)
      · rw [hafter] at hknown
        exact Or.inl hknown
  | paused =>
      rw [fate_turn] at hknown
      exact Or.inl hknown
  | cancelled i =>
      have hsame : (p.cancelled i).fate = p.fate := by
        unfold PlotPool.cancelled
        split <;> exact fate_same rfl
      rw [hsame] at hknown
      exact Or.inl hknown

/-- What an answer makes of its job. -/
theorem sent_fate {result : PlotResult} (hg : p.Good) (hsends : p.Sends i jobId) :
    (p.sent i jobId result).fate = p.fate ∨ ∃ outcome,
      (p.sent i jobId result).fate = update p.fate jobId (some [outcome]) ∧
        (outcome = .drawn → ∃ reply, result = .responded reply ∧ reply.ok = true) := by
  have hfate := hg.fate_open.mpr (Or.inr ⟨i, hsends⟩)
  cases result with
  | responded reply =>
      refine Or.inr ⟨_, fate_turn.trans (fate_settle hfate), fun hdrawn => ⟨reply, rfl, ?_⟩⟩
      by_contra hok
      rw [if_neg hok] at hdrawn
      exact absurd hdrawn (by simp)
  | raised message =>
      refine Or.inr ⟨_, fate_turn.trans (fate_settle hfate), fun hdrawn => ?_⟩
      exact absurd hdrawn (by simp)
  | noChild kind reason =>
      rcases @errors_noChild p i jobId kind reason hfate with ⟨_, -, hafter⟩ | ⟨-, hafter⟩
      · exact Or.inr ⟨_, hafter, fun hdrawn => absurd hdrawn (by simp)⟩
      · exact Or.inl hafter

/-- A job is drawn where it was so before, or where the answer says so. -/
theorem next_drawn (hg : p.Good) (h : p.next a = some p') (hdrawn : p'.fate jobId = some [.drawn]) :
    p.fate jobId = some [.drawn] ∨ ∃ i reply, a = .sent i (.responded reply) ∧ reply.ok = true ∧
      p.Sends i jobId := by
  by_cases hsent : ∃ i result, a = .sent i result
  · obtain ⟨i, result, rfl⟩ := hsent
    simp only [next] at h
    split at h
    next => exact absurd h (by simp)
    next =>
      split at h
      next job hsends =>
        obtain rfl := Option.some.inj h
        rcases @sent_fate p i job result hg hsends with hsame | ⟨outcome, hafter, hreply⟩
        · rw [hsame] at hdrawn
          exact Or.inl hdrawn
        · rw [hafter] at hdrawn
          by_cases heq : jobId = job
          · subst heq
            rw [update_self, Option.some.injEq, List.singleton_inj] at hdrawn
            obtain ⟨reply, rfl, hok⟩ := hreply hdrawn
            exact Or.inr ⟨i, reply, rfl, hok, hsends⟩
          · rw [update_of_ne heq] at hdrawn
            exact Or.inl hdrawn
      next => exact absurd h (by simp)
  · have hnone : p.endedBy a p' = none := by
      cases a with
      | sent i result => exact absurd ⟨i, result, rfl⟩ hsent
      | _ => rfl
    have hmoved := hg.errorStep h
    rw [hnone] at hmoved
    cases hmoved with
    | quiet herrors hfate =>
        rw [hfate] at hdrawn
        exact Or.inl hdrawn
    | pending job herrors hfate =>
        rw [hfate] at hdrawn
        by_cases heq : jobId = job
        · subst heq
          rw [update_self] at hdrawn
          exact absurd hdrawn (by simp)
        · rw [update_of_ne heq] at hdrawn
          exact Or.inl hdrawn

end PlotPool

/-! ### One caller at a time

A loop waits for its command to end before it sends another, and nobody else calls a plot flight.
So a plot flight has one caller at most, and which call an answer is for is never in doubt.
-/

/-- Where one call waited at most, it still waits, or nobody does. -/
theorem Flight.Leaves.few {l : List (CallId × Command)} {f' : Flight Unit} {e : Effects}
    (h : Flight.Leaves l (f', e)) (hl : l.length ≤ 1) :
    f'.callers = [] ∨ e.finished = none ∧ f'.callers = l := by
  unfold Flight.Leaves at h
  split at h
  next hnone =>
    have hsub : f'.callers.Sublist l := h
    by_cases hnil : f'.callers = []
    · exact Or.inl hnil
    · have hpos := List.length_pos_iff.mpr hnil
      have hle := hsub.length_le
      exact Or.inr ⟨hnone, hsub.eq_of_length (by omega)⟩
  next c result hsome =>
    obtain ⟨command, hsub⟩ := h
    have hle : f'.callers.length + 1 ≤ l.length := hsub.length_le
    exact Or.inl (List.eq_nil_of_length_eq_zero (by omega))

/-- A call that comes in leaves the tasks as they are. -/
theorem Flight.call_tasks {f : Flight Unit} {c : CallId} {command : Command} :
    (f.call c command).1.tasks = f.tasks := by
  unfold Flight.call Flight.underLock Flight.exchange
  split_ifs
  · split <;> rfl
  · rfl
  · rfl
  · rfl

/-! ### The works

Queue, flights and depot are three systems with invariants of their own.  What is added here is
what each says of the others; it is stated for any order of their steps, since no two of them are
taken together.
-/

variable {C T F : Type} {studio : Studio T F} {directory : String} {cfg : CoordSettings}
  {jobId : JobId}

namespace Works

variable {s s' : Works C T F} {i : Nat} {k : ChildId}

/-- **How the parts hang together.**  A call that waits is its loop's one command out; a child
draws what the command it is at asks for; and what an answer on its way says is drawn, and what
the queue calls drawn, stands. -/
structure Coupled (studio : Studio T F) (directory : String) (cfg : CoordSettings)
    (s : Works C T F) : Prop where
  pool : s.pool.Good
  flights : ∀ i, (flightSystem cfg .scripted).Reach Flight.oneBringUp (s.flights i)
  callers : ∀ i c command, (c, command) ∈ (s.flights i).callers →
    (s.flights i).callers = [(c, plotCommand)] ∧ c < s.calls ∧ s.pool.Sends i (s.orders c)
  asked : ∀ jobId, s.pool.fate jobId ≠ none → PlotQueue.jobIdOk jobId = true
  drawers : ∀ i k jobId x, s.depot.drawers (i, k) = some (jobId, x) → ∃ tag c,
    (s.flights i).Busy k tag plotCommand ∧
      (s.flights i).written tag = some (.call c, k, plotCommand) ∧ s.orders c = jobId
  proper : s.depot.Proper studio directory
  reported : ∀ i c r, (s.flights i).Reported c r → r.msg.ok = true →
    s.depot.Stands studio directory (s.orders c)
  drawn : ∀ jobId, s.pool.fate jobId = some [.drawn] → s.depot.Stands studio directory jobId

namespace Coupled

theorem inv (h : s.Coupled studio directory cfg) (i : Nat) :
    Flight.Inv .scripted (s.flights i) := Flight.reach_inv (h.flights i)

theorem attended (h : s.Coupled studio directory cfg) (i : Nat) : (s.flights i).Attended :=
  Flight.reach_attended (h.flights i)

/-- A command is out for what a child draws, and the call that asks for it waits. -/
theorem draws {x : Drawing T F} (h : s.Coupled studio directory cfg)
    (hx : s.depot.drawers (i, k) = some (jobId, x)) : ∃ tag c,
      (s.flights i).Busy k tag plotCommand ∧
        (s.flights i).written tag = some (.call c, k, plotCommand) ∧ s.orders c = jobId ∧
          (c, plotCommand) ∈ (s.flights i).callers := by
  obtain ⟨tag, c, hbusy, hwritten, hjob⟩ := h.drawers i k jobId x hx
  refine ⟨tag, c, hbusy, hwritten, hjob, ?_⟩
  obtain ⟨o, -, hwritten', hawaits, -⟩ :=
    (h.attended i).awaiting (h.inv i).serial hbusy.hand.reading
  obtain rfl := (Prod.mk.inj (Option.some.inj (hwritten.symm.trans hwritten'))).1
  cases hawaits with
  | call c command howner => exact Flight.Exchanging.mem_callers howner

theorem sends {x : Drawing T F} (h : s.Coupled studio directory cfg)
    (hx : s.depot.drawers (i, k) = some (jobId, x)) : s.pool.Sends i jobId := by
  obtain ⟨tag, c, -, -, rfl, hmem⟩ := h.draws hx
  exact (h.callers i c _ hmem).2.2

/-- **A job is drawn by one child at a time.** -/
theorem alone {i' : Nat} {k' : ChildId} {x y : Drawing T F} (h : s.Coupled studio directory cfg)
    (hx : s.depot.drawers (i, k) = some (jobId, x))
    (hy : s.depot.drawers (i', k') = some (jobId, y)) : i = i' ∧ k = k' := by
  obtain rfl := h.pool.shape.alone i i' jobId (h.sends hx) (h.sends hy)
  obtain ⟨_, _, hbusy, -⟩ := h.draws hx
  obtain ⟨_, _, hbusy', -⟩ := h.draws hy
  exact ⟨rfl, (h.attended i).one_at_work (h.inv i).serial hbusy.hand.atWork hbusy'.hand.atWork⟩

/-- Nobody draws a job whose answer is on its way. -/
theorem not_reported {c : CallId} {r : Sent} (h : s.Coupled studio directory cfg)
    (hreported : (s.flights i).Reported c r) (x : Nat × ChildId) (y : Drawing T F) :
    s.depot.drawers x ≠ some (s.orders c, y) := by
  intro hx
  obtain ⟨command, hmem⟩ := hreported.caller
  obtain ⟨i', k'⟩ := x
  obtain rfl := h.pool.shape.alone i i' _ (h.callers i c command hmem).2.2 (h.sends hx)
  obtain ⟨tag, _, hbusy, -⟩ := h.draws hx
  exact hbusy.not_reported (h.inv i) (h.attended i) hreported

/-- Nobody draws a job that is drawn. -/
theorem not_drawn (h : s.Coupled studio directory cfg) (hdrawn : s.pool.fate jobId = some [.drawn])
    (x : Nat × ChildId) (y : Drawing T F) : s.depot.drawers x ≠ some (jobId, y) := by
  intro hx
  have hopen := h.pool.fate_open.mpr (Or.inr ⟨x.1, h.sends (i := x.1) (k := x.2) hx⟩)
  exact absurd (hopen.symm.trans hdrawn) (by simp)

theorem ok_of_sends (h : s.Coupled studio directory cfg) (hsends : s.pool.Sends i jobId) :
    PlotQueue.jobIdOk jobId = true := by
  refine h.asked jobId ?_
  rw [h.pool.fate_open.mpr (Or.inr ⟨i, hsends⟩)]
  simp

/-! ### The queue goes on

There are two cases.  Either no command that waits for a call is touched, or one loop goes on with
an answer that its flight has handed over.
-/

/-- A step of the queue that leaves every command out where a call waits. -/
theorem repool {a : PlotAction} {pool : PlotPool} (h : s.Coupled studio directory cfg)
    (hnext : s.pool.next a = some pool) (hsends : ∀ i, a.loop? = some i → (s.flights i).callers = [])
    (hasked : ∀ jobId, a = .enqueue jobId → PlotQueue.jobIdOk jobId = true)
    (hanswer : ∀ i reply jobId, a = .sent i (.responded reply) → reply.ok = true →
      s.pool.Sends i jobId → s.depot.Stands studio directory jobId) :
    Coupled studio directory cfg { s with pool := pool } := by
  refine ⟨h.pool.next hnext, h.flights, fun i c command hmem => ?_, fun jobId hknown => ?_,
    h.drawers, h.proper, h.reported, fun jobId hdrawn => ?_⟩
  · obtain ⟨hone, hlt, hsent⟩ := h.callers i c command hmem
    refine ⟨hone, hlt, PlotPool.next_sends hnext hsent fun heq => ?_⟩
    have hnone := hsends i heq
    rw [hnone] at hone
    exact absurd hone (by simp)
  · rcases PlotPool.next_known h.pool hnext hknown with hbefore | heq
    · exact h.asked jobId hbefore
    · exact hasked jobId heq
  · rcases PlotPool.next_drawn h.pool hnext hdrawn with hbefore | ⟨i, reply, heq, hok, hsent⟩
    · exact h.drawn jobId hbefore
    · exact hanswer i reply jobId heq hok hsent

/-- A loop goes on with an answer; its call waits no more. -/
theorem sent {result : Result} (h : s.Coupled studio directory cfg)
    (hfree : (s.flights i).callers = [])
    (hanswer : ∀ r jobId, result = .response r → r.msg.ok = true → s.pool.Sends i jobId →
      s.depot.Stands studio directory jobId) :
    (s.sent i result).Coupled studio directory cfg := by
  unfold Works.sent
  split
  next => exact h
  next pool hnext =>
    refine h.repool hnext (fun j hj => ?_) (fun _ heq => absurd heq (by simp)) ?_
    · obtain rfl := Option.some.inj hj
      exact hfree
    · intro j reply jobId heq hok hsends
      obtain ⟨rfl, hresult⟩ := PlotAction.sent.inj heq
      cases result with
      | response r =>
          obtain rfl := PlotResult.responded.inj hresult
          exact hanswer r jobId rfl hok hsends
      | lost _ | unavailable _ _ => exact absurd hresult (by simp [PlotResult.ofResult])

/-! ### A flight goes on

A step of a flight changes what one child is at, and may put a file in place along with it.  All
that is said of other flights stays, and so does what is said of a child that goes on with its
command.
-/

/-- A child of another flight, or one that neither answers nor dies, stays at its command. -/
theorem stays {a : FlightAction Msg} {f' : Flight Unit} {e : Effects} {i' : Nat} {tag : Tag}
    {c : CallId} (h : s.Coupled studio directory cfg)
    (hstep : (s.flights i).next cfg .scripted a = some (f', e))
    (hbusy : (s.flights i').Busy k tag plotCommand)
    (hwritten : (s.flights i').written tag = some (.call c, k, plotCommand))
    (hother : i' = i → (∀ world, a ≠ .answer k world) ∧ (s.flights i).victim a ≠ some k) :
    ((s.setFlight i f').flights i').Busy k tag plotCommand ∧
      ((s.setFlight i f').flights i').written tag = some (.call c, k, plotCommand) := by
  by_cases hi : i' = i
  · subst hi
    obtain ⟨hanswer, hvictim⟩ := hother rfl
    obtain ⟨hbusy', hsame⟩ :=
      Flight.next_busy hbusy (h.inv i') (h.attended i') hanswer hvictim hstep
    rw [← hsame] at hwritten
    rw [setFlight_self]
    exact ⟨hbusy', hwritten⟩
  · rw [setFlight_other hi]
    exact ⟨hbusy, hwritten⟩

/-- One call waits at most. -/
theorem few (h : s.Coupled studio directory cfg) (i : Nat) : (s.flights i).callers.length ≤ 1 := by
  cases hcallers : (s.flights i).callers with
  | nil => exact Nat.zero_le _
  | cons x rest =>
      have hone := (h.callers i x.1 x.2 (by rw [hcallers]; exact List.mem_cons_self ..)).1
      rw [hcallers] at hone
      rw [hone]
      exact Nat.le_refl _

/-- A flight takes a step that is not a call, and the directory may be changed with it. -/
theorem reflight {a : FlightAction Msg} {f' : Flight Unit} {e : Effects}
    {depot : Depot C (Nat × ChildId) T F} (h : s.Coupled studio directory cfg)
    (hstep : (s.flights i).next cfg .scripted a = some (f', e))
    (hone : Flight.AtMostOneBringUp f') (hcall : ∀ c command, a ≠ .call c command)
    (hproper : depot.Proper studio directory)
    (hstands : ∀ jobId, PlotQueue.jobIdOk jobId = true →
      (∀ x y, s.depot.drawers x ≠ some (jobId, y)) → s.depot.Stands studio directory jobId →
        depot.Stands studio directory jobId)
    (hdrawers : ∀ i' k jobId x, depot.drawers (i', k) = some (jobId, x) → ∃ tag c,
      ((s.setFlight i f').flights i').Busy k tag plotCommand ∧
        ((s.setFlight i f').flights i').written tag = some (.call c, k, plotCommand) ∧
          s.orders c = jobId)
    (hanswer : ∀ k reply tag command c, a = .answer k reply → (s.flights i).Busy k tag command →
      (s.flights i).written tag = some (.call c, k, command) → reply.ok = true →
        depot.Stands studio directory (s.orders c)) :
    Coupled studio directory cfg { s.setFlight i f' with depot := depot } := by
  have hreach := (h.flights i).step hone ⟨e, hstep⟩
  refine ⟨h.pool, fun j => ?_, fun j c command hmem => ?_, h.asked, hdrawers, hproper,
    fun j c r hreported hok => ?_, fun jobId hdrawn => ?_⟩
  · show (flightSystem cfg .scripted).Reach _ ((s.setFlight i f').flights j)
    by_cases hj : j = i
    · subst hj
      rw [setFlight_self]
      exact hreach
    · rw [setFlight_other hj]
      exact h.flights j
  · have hmem : (c, command) ∈ ((s.setFlight i f').flights j).callers := hmem
    show ((s.setFlight i f').flights j).callers = _ ∧ _
    by_cases hj : j = i
    · subst hj
      rw [setFlight_self] at hmem ⊢
      rcases (Flight.next_leaves hcall hstep).few (h.few j) with hnil | ⟨-, hsame⟩
      · rw [hnil] at hmem
        exact absurd hmem List.not_mem_nil
      · rw [hsame] at hmem ⊢
        exact h.callers j c command hmem
    · rw [setFlight_other hj] at hmem ⊢
      exact h.callers j c command hmem
  · have hreported : ((s.setFlight i f').flights j).Reported c r := hreported
    have hbefore : (s.flights j).Reported c r → depot.Stands studio directory (s.orders c) := by
      intro hr
      obtain ⟨command, hmem⟩ := hr.caller
      refine hstands _ (h.ok_of_sends (h.callers j c command hmem).2.2) ?_ (h.reported j c r hr hok)
      exact fun x y => h.not_reported hr x y
    by_cases hj : j = i
    · subst hj
      rw [setFlight_self] at hreported
      rcases Flight.next_reported (h.inv j) (Flight.reach_inv hreach) hstep hreported with
        hr | ⟨k, world, tag, command, ha, hbusy, -, hwritten, hmsg⟩
      · exact hbefore hr
      · rw [hmsg] at hok
        exact hanswer k world tag command c ha hbusy hwritten hok
    · rw [setFlight_other hj] at hreported
      exact hbefore hreported
  · refine hstands jobId (h.asked jobId ?_) (h.not_drawn hdrawn) (h.drawn jobId hdrawn)
    have hdrawn : s.pool.fate jobId = some [.drawn] := hdrawn
    rw [hdrawn]
    simp

/-! ### A loop sends its job

A call is new and has a number nobody has had, so no answer can be on its way for it yet.
-/

/-- Loop `i` calls its flight. -/
theorem called {f' : Flight Unit} {e : Effects} (h : s.Coupled studio directory cfg)
    (hsends : s.pool.Sends i jobId) (hfree : (s.flights i).callers = [])
    (hstep : (s.flights i).call s.calls plotCommand = (f', e))
    (hone : Flight.AtMostOneBringUp f') :
    Coupled studio directory cfg { s.setFlight i f' with
      calls := s.calls + 1
      orders := update s.orders s.calls jobId } := by
  have hnext : (s.flights i).next cfg .scripted (.call s.calls plotCommand) = some (f', e) :=
    congrArg some hstep
  have hreach := (h.flights i).step hone ⟨e, hnext⟩
  have horders : ∀ {c}, c < s.calls → update s.orders s.calls jobId c = s.orders c :=
    fun hc => update_of_ne (Nat.ne_of_lt hc) _ _
  refine ⟨h.pool, fun j => ?_, fun j c command hmem => ?_, h.asked, fun j k job x hx => ?_,
    h.proper, fun j c r hreported hok => ?_, h.drawn⟩
  · show (flightSystem cfg .scripted).Reach _ ((s.setFlight i f').flights j)
    by_cases hj : j = i
    · subst hj
      rw [setFlight_self]
      exact hreach
    · rw [setFlight_other hj]
      exact h.flights j
  · have hmem : (c, command) ∈ ((s.setFlight i f').flights j).callers := hmem
    show ((s.setFlight i f').flights j).callers = _ ∧ c < s.calls + 1 ∧
      s.pool.Sends j (update s.orders s.calls jobId c)
    by_cases hj : j = i
    · subst hj
      rw [setFlight_self] at hmem ⊢
      have hleft := Flight.call_leaves (f := s.flights j) s.calls plotCommand
      rw [hstep, hfree, List.nil_append] at hleft
      rcases hleft.few (Nat.le_refl _) with hnil | ⟨-, hsame⟩
      · rw [hnil] at hmem
        exact absurd hmem List.not_mem_nil
      · rw [hsame, List.mem_singleton] at hmem
        obtain ⟨rfl, rfl⟩ := Prod.mk.inj hmem
        rw [update_self]
        exact ⟨hsame, Nat.lt_succ_self _, hsends⟩
    · rw [setFlight_other hj] at hmem ⊢
      obtain ⟨hone', hlt, hsent⟩ := h.callers j c command hmem
      rw [horders hlt]
      exact ⟨hone', Nat.lt_succ_of_lt hlt, hsent⟩
  · obtain ⟨tag, c, hbusy, hwritten, hjob, hmem⟩ := h.draws hx
    obtain ⟨hbusy', hwritten'⟩ := h.stays hnext hbusy hwritten
      fun _ => ⟨fun _ => by simp, by simp [Flight.victim]⟩
    exact ⟨tag, c, hbusy', hwritten', (horders (h.callers j c _ hmem).2.1).trans hjob⟩
  · have hreported : ((s.setFlight i f').flights j).Reported c r := hreported
    have hbefore : (s.flights j).Reported c r := by
      by_cases hj : j = i
      · subst hj
        rw [setFlight_self] at hreported
        rcases Flight.next_reported (h.inv j) (Flight.reach_inv hreach) hnext hreported with
          hr | ⟨_, _, _, _, ha, -⟩
        · exact hr
        · exact absurd ha (by simp)
      · rwa [setFlight_other hj] at hreported
    obtain ⟨command, hmem⟩ := hbefore.caller
    show s.depot.Stands studio directory (update s.orders s.calls jobId c)
    rw [horders (h.callers j c command hmem).2.1]
    exact h.reported j c r hbefore hok

end Coupled

end Works

end DonutServer
