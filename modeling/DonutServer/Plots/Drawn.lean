/-
What is said to be drawn is there.

The queue calls a job drawn once an answer says so, which a child gave when it had saved its last
figure; in between, the answer crossed a pipe, a thread and a lock, while other children drew and
died.  That nothing can have happened to the figures by then rests on who may draw what: a child
draws a job only while the call that asks for it is waiting, a loop has one call out, and no two
loops have the same job.
-/
import DonutServer.Plots.Coupled

namespace DonutServer

open AtomicFile Function

variable {C T F : Type} {studio : Studio T F} {directory : String} {cfg : CoordSettings}
  {jobId : JobId}

namespace Works

variable {s s' : Works C T F} {i : Nat} {k : ChildId}

/-! ### The steps, put together

The parts of `Coupled` are each changed by lemmas of their own, and a step of the works changes
several parts at once: a loop goes on and its flight takes a call, a child is killed and leaves a
draw, a flight hands an answer over and the queue notes it.  Here each kind of step is put together
from those lemmas, in the order in which the code does the things.

What has to be shown in every case is that the steps in between leave the figures of a drawn job
alone.  A child that might write them would have to draw the job, so its call would be out; the job
is drawn, so no call for it is.
-/

/-- A loop that hears of an answer leaves the flights as they are. -/
@[simp] theorem sent_flights {result : Result} : (s.sent i result).flights = s.flights := by
  unfold sent
  split <;> rfl

/-- A loop that calls its flight leaves the bring-ups as they are. -/
theorem dispatch_tasks (j : Nat) : ((s.dispatch i).flights j).tasks = (s.flights j).tasks := by
  have hset : ((s.setFlight i ((s.flights i).call s.calls plotCommand).1).flights j).tasks =
      (s.flights j).tasks := by
    by_cases hj : j = i
    · subst hj
      rw [setFlight_self]
      exact Flight.call_tasks
    · rw [setFlight_other hj]
  unfold dispatch
  split
  next =>
    dsimp only
    split
    next => exact hset
    next =>
      rw [sent_flights]
      exact hset
  next => rfl

namespace Coupled

/-- A loop that has taken a job calls its flight, and may hear at once that there is no child. -/
theorem dispatch (h : s.Coupled studio directory cfg) (hfree : (s.flights i).callers = [])
    (hone : Flight.AtMostOneBringUp (s.flights i)) :
    (s.dispatch i).Coupled studio directory cfg := by
  unfold Works.dispatch
  split
  next job hsends =>
    generalize hcall : (s.flights i).call s.calls plotCommand = r
    obtain ⟨f', e⟩ := r
    have hone' : Flight.AtMostOneBringUp f' := by
      have htasks : ((s.flights i).call s.calls plotCommand).1.tasks = (s.flights i).tasks :=
        Flight.call_tasks
      rw [hcall] at htasks
      unfold Flight.AtMostOneBringUp
      rw [htasks]
      exact hone
    have hcalled := h.called hsends hfree hcall hone'
    dsimp only
    split
    next => exact hcalled
    next c result hfin =>
      have hleft := Flight.call_leaves (f := s.flights i) s.calls plotCommand
      rw [hcall, hfree, List.nil_append] at hleft
      refine hcalled.sent ?_ fun r jobId hresult => ?_
      · show ((s.setFlight i f').flights i).callers = []
        rw [setFlight_self]
        rcases hleft.few (Nat.le_refl _) with hnil | ⟨hnone, -⟩
        · exact hnil
        · exact absurd (hnone.symm.trans hfin) (by simp)
      · -- A call that ends at once has found no child.
        subst hresult
        have hnext : (s.flights i).next cfg .scripted (.call s.calls plotCommand) =
          some (f', e) := congrArg some hcall
        exact absurd (Flight.finished_response hnext hfin).1 (by simp)
  next => exact h

/-- What a flight lets its loop see. -/
theorem told {e : Effects} (h : s.Coupled studio directory cfg)
    (hfree : e.finished ≠ none → (s.flights i).callers = [])
    (hone : Flight.AtMostOneBringUp (s.flights i))
    (hanswer : ∀ c r jobId, e.finished = some (c, .response r) → r.msg.ok = true →
      s.pool.Sends i jobId → s.depot.Stands studio directory jobId) :
    (s.told i e).Coupled studio directory cfg := by
  unfold Works.told
  split
  next => exact h
  next c result hfin =>
    have hnone : (s.flights i).callers = [] := hfree (by rw [hfin]; simp)
    refine (h.sent hnone fun r jobId hresult => ?_).dispatch ?_ ?_
    · subst hresult
      exact hanswer c r jobId hfin
    · rw [sent_flights]
      exact hnone
    · rw [sent_flights]
      exact hone

end Coupled

/-- A loop that hears of its call's end leaves the bring-ups as they are. -/
theorem told_tasks {e : Effects} (j : Nat) :
    ((s.told i e).flights j).tasks = (s.flights j).tasks := by
  unfold told
  split
  next => rfl
  next =>
    rw [dispatch_tasks, sent_flights]

/-- Only the tasks of a flight say whether one bring-up is active at most. -/
theorem bringUp_congr {f f' : Flight Unit} (h : f'.tasks = f.tasks) :
    Flight.AtMostOneBringUp f' ↔ Flight.AtMostOneBringUp f := by
  unfold Flight.AtMostOneBringUp
  rw [h]

namespace Coupled

/-- A loop goes on by itself, and may call its flight. -/
theorem drains {a : PlotAction} (h : s.Coupled studio directory cfg)
    (ha : a = .begin i ∨ a = .awake i ∨ a = .paused i) (hstep : s.drains a i = some s')
    (hone : ∀ j, Flight.AtMostOneBringUp (s'.flights j)) : s'.Coupled studio directory cfg := by
  obtain ⟨pool, hnext, rfl⟩ := Option.map_eq_some_iff.mp hstep
  have hfree : (s.flights i).callers = [] := by
    refine List.eq_nil_iff_forall_not_mem.mpr fun x hx => ?_
    exact PlotPool.next_idle hnext ha _ (h.callers i x.1 x.2 hx).2.2
  have hloop : a.loop? = some i := by
    rcases ha with rfl | rfl | rfl <;> rfl
  refine Coupled.dispatch (h.repool hnext (fun j hj => ?_) ?_ ?_) hfree ?_
  · rw [hloop] at hj
    obtain rfl := Option.some.inj hj
    exact hfree
  · rintro jobId rfl
    simp at ha
  · rintro j reply jobId rfl
    simp at ha
  · exact (bringUp_congr (dispatch_tasks i)).mp (hone i)

end Coupled

variable [DecidableEq C]

/-- A flight whose child is killed is as it was, but for that child. -/
theorem killed_eq (studio : Studio T F) (directory : String) (s : Works C T F) (i : Nat)
    (victim : Option ChildId) : ∃ depot, s.killed studio directory i victim =
      { s with depot := depot } ∧ (victim = none ∧ depot = s.depot ∨ ∃ k, victim = some k ∧
        s.depot.next studio directory (.kill (.drawer (i, k))) = some depot) := by
  unfold killed
  cases victim with
  | none => exact ⟨s.depot, rfl, Or.inl ⟨rfl, rfl⟩⟩
  | some k => exact ⟨_, rfl, Or.inr ⟨k, rfl, rfl⟩⟩

namespace Coupled

/-- A step around the directory that begins no draw and takes no figure away. -/
theorem redepot {a : DepotAction C (Nat × ChildId) T} {depot : Depot C (Nat × ChildId) T F}
    (h : s.Coupled studio directory cfg) (hfaithful : studio.Faithful)
    (hstep : s.depot.next studio directory a = some depot) (hok : s.depot.Orderly directory a)
    (hdraw : ∀ x job, a ≠ .draw x job)
    (hkept : ∀ job name size, a ≠ .remove (plotPath directory job name size)) :
    Coupled studio directory cfg { s with depot := depot } := by
  refine ⟨h.pool, h.flights, h.callers, h.asked, fun i k job x hx => ?_,
    h.proper.next hfaithful hok hstep, fun i c r hreported hrok => ?_, fun job hdrawn => ?_⟩
  · obtain ⟨y, hy⟩ := (Depot.next_moves hstep).drawers_same (hdraw _) hx
    exact h.drawers i k job y hy
  · obtain ⟨command, hmem⟩ := hreported.caller
    exact (h.reported i c r hreported hrok).next h.proper
      (h.ok_of_sends (h.callers i c command hmem).2.2) hok (hkept _) (h.not_reported hreported) hstep
  · refine (h.drawn job hdrawn).next h.proper (h.asked job ?_) hok (hkept _) (h.not_drawn hdrawn) hstep
    have hdrawn : s.pool.fate job = some [.drawn] := hdrawn
    rw [hdrawn]
    simp

/-- A step of a flight that is not its loop's, and not one of a child that draws. -/
theorem flown {a : FlightAction Msg} {f' : Flight Unit} {e : Effects}
    (h : s.Coupled studio directory cfg) (hfaithful : studio.Faithful)
    (hstep : (s.flights i).next cfg .scripted a = some (f', e)) (ha : a.aside = true)
    (hone : Flight.AtMostOneBringUp f') :
    (((s.setFlight i f').killed studio directory i ((s.flights i).victim a)).told i e).Coupled
      studio directory cfg := by
  have hcall : ∀ c command, a ≠ .call c command := by
    rintro c command rfl
    exact absurd ha (by simp [FlightAction.aside])
  have hanswer : ∀ k world, a ≠ .answer k world := by
    rintro k world rfl
    exact absurd ha (by simp [FlightAction.aside])
  obtain ⟨depot, hkilled, hdepot⟩ :=
    killed_eq studio directory (s.setFlight i f') i ((s.flights i).victim a)
  rw [hkilled]
  have hkill : ∀ k, s.depot.Orderly directory
      (.kill (.drawer (i, k)) : DepotAction C (Nat × ChildId) T) := fun _ => trivial
  have hstands : ∀ jobId, PlotQueue.jobIdOk jobId = true →
      (∀ x y, s.depot.drawers x ≠ some (jobId, y)) → s.depot.Stands studio directory jobId →
        depot.Stands studio directory jobId := by
    intro jobId hid hnone hstand
    rcases hdepot with ⟨-, rfl⟩ | ⟨k, -, hdepot⟩
    · exact hstand
    · exact hstand.next h.proper hid (hkill k) (by simp) hnone hdepot
  have hcoupled : Coupled studio directory cfg { s.setFlight i f' with depot := depot } := by
    refine h.reflight hstep hone hcall ?_ hstands (fun i' k' jobId x hx => ?_) fun k world _ _ _ heq =>
      absurd heq (hanswer k world)
    · rcases hdepot with ⟨-, rfl⟩ | ⟨k, -, hdepot⟩
      · exact h.proper
      · exact h.proper.next hfaithful (hkill k) hdepot
    · obtain ⟨y, hy, hother⟩ : ∃ y, s.depot.drawers (i', k') = some (jobId, y) ∧
          (i' = i → (s.flights i).victim a ≠ some k') := by
        rcases hdepot with ⟨hvictim, rfl⟩ | ⟨k, hvictim, hdepot⟩
        · exact ⟨x, hx, fun _ => by rw [hvictim]; simp⟩
        · obtain ⟨y, hy⟩ := (Depot.next_moves hdepot).drawers_same (by simp) hx
          refine ⟨y, hy, ?_⟩
          rintro rfl heq
          obtain rfl := Option.some.inj (hvictim.symm.trans heq)
          -- The child that was killed draws no more.
          simp only [Depot.next] at hdepot
          obtain ⟨g, -, rfl⟩ := Option.map_eq_some_iff.mp hdepot
          exact absurd hx (by simp [Depot.quit])
      obtain ⟨tag, c, hbusy, hwritten, hjob⟩ := h.drawers i' k' jobId y hy
      obtain ⟨hbusy', hwritten'⟩ :=
        h.stays hstep hbusy hwritten fun hi => ⟨hanswer k', hother hi⟩
      exact ⟨tag, c, hbusy', hwritten', hjob⟩
  refine hcoupled.told (fun hfin => ?_) ?_ fun c r jobId hfin hok hsends => ?_
  · show ((s.setFlight i f').flights i).callers = []
    rw [setFlight_self]
    rcases (Flight.next_leaves hcall hstep).few (h.few i) with hnil | ⟨hnone, -⟩
    · exact hnil
    · exact absurd hnone hfin
  · show Flight.AtMostOneBringUp ((s.setFlight i f').flights i)
    rw [setFlight_self]
    exact hone
  · obtain ⟨-, command, k, tag, howner⟩ := Flight.finished_response hstep hfin
    have hreported : (s.flights i).Reported c r := .returned k tag command howner
    obtain ⟨command', hmem⟩ := hreported.caller
    have hsends' := (h.callers i c command' hmem).2.2
    have hsends : s.pool.loops i = .sending jobId := hsends
    obtain rfl := DrainState.sending.inj (hsends.symm.trans hsends')
    exact hstands _ (h.ok_of_sends hsends') (h.not_reported hreported)
      (h.reported i c r hreported hok)

omit [DecidableEq C] in
/-- Whoever sent the command that a child has in its hands waits, and it is the child's loop. -/
theorem ordered {tag : Tag} {command : Command} (h : s.Coupled studio directory cfg)
    (hhand : (s.flights i).HasInHand k tag command) (horder : s.order i tag = some jobId) :
    command = plotCommand ∧ s.pool.Sends i jobId ∧ ∃ c,
      (s.flights i).written tag = some (.call c, k, plotCommand) ∧ s.orders c = jobId := by
  obtain ⟨o, -, howner, hawaits, -⟩ := (h.attended i).awaiting (h.inv i).serial hhand.reading
  unfold order at horder
  rw [howner] at horder
  cases hawaits with
  | call c command hlock =>
      obtain rfl := Option.some.inj horder
      have hmem := Flight.Exchanging.mem_callers hlock
      obtain ⟨hcallers, -, hsends⟩ := h.callers i c command hmem
      rw [hcallers, List.mem_singleton] at hmem
      obtain rfl := (Prod.mk.inj hmem).2
      exact ⟨rfl, hsends, c, howner, rfl⟩
  | replay w args htask => exact absurd horder (by simp)

omit [DecidableEq C] in
/-- A child that has the command for a job, and draws nothing yet, finds nobody drawing the job. -/
theorem undrawn (h : s.Coupled studio directory cfg) (hsends : s.pool.Sends i jobId)
    (hwork : ((s.flights i).children k).AtWork) (hidle : s.depot.drawers (i, k) = none)
    (x : Nat × ChildId) (y : Drawing T F) : s.depot.drawers x ≠ some (jobId, y) := by
  intro hx
  obtain ⟨i', k'⟩ := x
  obtain rfl := h.pool.shape.alone i i' _ hsends (h.sends hx)
  obtain ⟨_, _, hbusy, -⟩ := h.draws hx
  obtain rfl := (h.attended i).one_at_work (h.inv i).serial hwork hbusy.hand.atWork
  exact absurd (hidle.symm.trans hx) (by simp)

/-- A child takes a command and begins to draw. -/
theorem takes (h : s.Coupled studio directory cfg) (hfaithful : studio.Faithful)
    (hstep : s.next studio directory cfg (.takes i k) = some s')
    (hone : ∀ j, Flight.AtMostOneBringUp (s'.flights j)) : s'.Coupled studio directory cfg := by
  obtain ⟨f', hreceive, hstep⟩ := Option.bind_eq_some_iff.mp hstep
  obtain ⟨⟨tag, command⟩, hhead, hstep⟩ := Option.bind_eq_some_iff.mp hstep
  obtain ⟨job, horder, hstep⟩ := Option.bind_eq_some_iff.mp hstep
  obtain ⟨depot, hdepot, rfl⟩ := Option.map_eq_some_iff.mp hstep
  have hnext : (s.flights i).next cfg .scripted (.receive k) = some (f', {}) := by
    simp [Flight.next, Flight.quietly, hreceive]
  obtain ⟨tag', command', rest, hinbox, halive, hbusy, hsame⟩ := Flight.receive_busy hreceive
  rw [hinbox] at hhead
  obtain ⟨rfl, rfl⟩ := Prod.mk.inj (Option.some.inj hhead)
  have hhand : (s.flights i).HasInHand k tag' command' :=
    ⟨halive, Or.inl (by rw [hinbox]; exact List.mem_cons_self ..)⟩
  obtain ⟨rfl, hsends, c, hwritten, hjob⟩ := h.ordered hhand horder
  obtain ⟨hidle, rfl⟩ : s.depot.drawers (i, k) = none ∧ depot = s.depot.goto (i, k) job .awaiting := by
    simp only [Depot.next] at hdepot
    split at hdepot
    next => exact absurd hdepot (by simp)
    next hnone => exact ⟨hnone, (Option.some.inj hdepot).symm⟩
  have hok : s.depot.Orderly directory (.draw (i, k) job : DepotAction C (Nat × ChildId) T) :=
    ⟨h.ok_of_sends hsends, h.undrawn hsends hhand.atWork hidle⟩
  refine h.reflight hnext ?_ (by simp) (h.proper.next hfaithful hok hdepot) ?_ ?_ (by simp)
  · have hone' := hone i
    rwa [show ({ s.setFlight i f' with depot := _ } : Works C T F).flights i = f' from
      setFlight_self] at hone'
  · intro jobId hid hnone' hstand
    exact hstand.next h.proper hid hok (by simp) hnone' hdepot
  · intro i' k' jobId x hx
    by_cases hself : (i', k') = (i, k)
    · obtain ⟨rfl, rfl⟩ := Prod.mk.inj hself
      have hx : update s.depot.drawers (i', k') (some (job, .awaiting)) (i', k') =
        some (jobId, x) := hx
      rw [update_self] at hx
      obtain rfl := (Prod.mk.inj (Option.some.inj hx)).1
      refine ⟨tag', c, ?_, ?_, hjob⟩
      · rw [setFlight_self]
        exact hbusy
      · rw [setFlight_self, hsame]
        exact hwritten
    · have hother : s.depot.drawers (i', k') = some (jobId, x) := by
        rw [← (Depot.next_moves hdepot).drawers_other fun heq => hself ?_]
        · exact hx
        · exact (Party.drawer.inj (Option.some.inj heq)).symm
      obtain ⟨tag, c', hbusy', hwritten', hjob⟩ := h.drawers i' k' jobId x hother
      obtain ⟨hstays, hsame⟩ := h.stays hnext hbusy' hwritten'
        fun _ => ⟨fun _ => by simp, by simp [Flight.victim]⟩
      exact ⟨tag, c', hstays, hsame, hjob⟩

omit [DecidableEq C] in
/-- What `render_plots` does by itself is in nobody's way. -/
theorem own_step (s : Works C T F) (directory : String) {a : DepotAction C (Nat × ChildId) T}
    {x : Nat × ChildId}
    (hparty : a.party = some (.drawer x)) (hdraw : a.external = false) :
    s.depot.Orderly directory a ∧ (∀ y job, a ≠ .draw y job) ∧
      ∀ job name size, a ≠ .remove (plotPath directory job name size) := by
  refine ⟨?_, ?_, ?_⟩
  · cases a with
    | complete c job tables => exact absurd hparty (by simp [DepotAction.party])
    | draw y job => exact absurd hdraw (by simp [DepotAction.external])
    | remove path => exact absurd hparty (by simp [DepotAction.party])
    | _ => trivial
  · rintro y job rfl
    exact absurd hdraw (by simp [DepotAction.external])
  · rintro job name size rfl
    exact absurd hparty (by simp [DepotAction.party])

/-- A child is done drawing, one way or the other, and answers. -/
theorem ends {a : DepotAction C (Nat × ChildId) T} {error : String} {f' : Flight Unit}
    {depot : Depot C (Nat × ChildId) T F} (h : s.Coupled studio directory cfg)
    (hfaithful : studio.Faithful) (hparty : a.party = some (.drawer (i, k)))
    (hdraw : a.external = false) (hdepot : s.depot.next studio directory a = some depot)
    (hover : depot.drawers (i, k) = none)
    (hanswer : (s.flights i).answer .scripted k (a.reply error) = some f')
    (hone : Flight.AtMostOneBringUp f') :
    Coupled studio directory cfg { s.setFlight i f' with depot := depot } := by
  have hnext : (s.flights i).next cfg .scripted (.answer k (a.reply error)) = some (f', {}) := by
    simp [Flight.next, Flight.quietly, hanswer]
  obtain ⟨hok, -, hkept⟩ := own_step s directory hparty hdraw
  refine h.reflight hnext hone (by simp) (h.proper.next hfaithful hok hdepot) ?_ ?_ ?_
  · exact fun job hid hnone hstand => hstand.next h.proper hid hok (hkept _) hnone hdepot
  · intro i' k' jobId x hx
    have hne : (i', k') ≠ (i, k) := by
      intro heq
      rw [heq, hover] at hx
      exact absurd hx (by simp)
    have hbefore : s.depot.drawers (i', k') = some (jobId, x) := by
      rw [← (Depot.next_moves hdepot).drawers_other fun heq => hne ?_]
      · exact hx
      · rw [hparty] at heq
        exact (Party.drawer.inj (Option.some.inj heq)).symm
    obtain ⟨tag, c, hbusy, hwritten, hjob⟩ := h.drawers i' k' jobId x hbefore
    have hother : i' = i → ∀ world, FlightAction.answer k (a.reply error) ≠ .answer k' world :=
      fun hi world heq => hne (by rw [hi, (FlightAction.answer.inj heq).1])
    obtain ⟨hstays, hsame⟩ := h.stays hnext hbusy hwritten
      fun hi => ⟨hother hi, by simp [Flight.victim]⟩
    exact ⟨tag, c, hstays, hsame, hjob⟩
  · intro k' reply tag command c heq hbusy hwritten hreply
    obtain ⟨rfl, rfl⟩ := FlightAction.answer.inj heq
    -- Only a child that has saved its last figure answers well.
    cases a with
    | done x =>
        obtain rfl := Party.drawer.inj (Option.some.inj hparty)
        obtain ⟨job, x, tables, figures, hx, hran, hdrawn, hread⟩ := h.proper.done hdepot
        obtain ⟨tag', c', hbusy', hwritten', hjob⟩ := h.drawers i k job x hx
        obtain ⟨rfl, rfl⟩ := Phase.busy.inj (hbusy.2.symm.trans hbusy'.2)
        obtain rfl := Client.call.inj
          (Prod.mk.inj (Option.some.inj (hwritten.symm.trans hwritten'))).1
        rw [hjob]
        exact ⟨tables, figures, (Depot.next_moves hdepot).ran hok hran, hdrawn, hread⟩
    | _ => exact absurd hreply (by simp [DepotAction.reply, Msg.ok])

/-- **One step of the works.** -/
theorem next {a : WorksAction C T} (h : s.Coupled studio directory cfg)
    (hfaithful : studio.Faithful) (hok : s.Orderly directory a s')
    (hstep : s.next studio directory cfg a = some s') : s'.Coupled studio directory cfg := by
  obtain ⟨hone, hok⟩ := hok
  cases a with
  | enqueue jobId =>
      simp only [Works.next] at hstep
      obtain ⟨pool, hnext, rfl⟩ := Option.map_eq_some_iff.mp hstep
      refine h.repool hnext (by simp [PlotAction.loop?]) (fun job heq => ?_) (by simp)
      obtain rfl := PlotAction.enqueue.inj heq
      exact hok
  | begin i => exact h.drains (Or.inl rfl) hstep hone
  | awake i => exact h.drains (Or.inr (Or.inl rfl)) hstep hone
  | paused i => exact h.drains (Or.inr (Or.inr rfl)) hstep hone
  | flight i a =>
      simp only [Works.next] at hstep
      split at hstep
      next ha =>
        obtain ⟨⟨f', e⟩, hnext, rfl⟩ := Option.map_eq_some_iff.mp hstep
        refine h.flown hfaithful hnext ha.1 ?_
        obtain ⟨depot, hkilled, -⟩ :=
          killed_eq studio directory (s.setFlight i f') i ((s.flights i).victim a)
        have hone' := (bringUp_congr (told_tasks i)).mp (hone i)
        dsimp only at hone'
        rw [hkilled] at hone'
        rwa [show ({ s.setFlight i f' with depot := depot } : Works C T F).flights i = f' from
          setFlight_self] at hone'
      next => exact absurd hstep (by simp)
  | takes i k => exact h.takes hfaithful hstep hone
  | depot a error =>
      simp only [Works.next] at hstep
      split at hstep
      next i k hparty =>
        split at hstep
        next => exact absurd hstep (by simp)
        next hguard =>
          have hdraw : a.external = false := by
            by_contra hext
            exact hguard (Or.inl (by simpa using hext))
          obtain ⟨depot, hdepot, hstep⟩ := Option.bind_eq_some_iff.mp hstep
          split at hstep
          next x hx =>
            obtain rfl := Option.some.inj hstep
            obtain ⟨hok', hnodraw, hkept⟩ := own_step s directory hparty hdraw
            exact h.redepot hfaithful hdepot hok' hnodraw hkept
          next hover =>
            obtain ⟨f', hanswer, rfl⟩ := Option.map_eq_some_iff.mp hstep
            refine h.ends hfaithful hparty hdraw hdepot hover hanswer ?_
            have hone' := hone i
            rwa [show ({ s.setFlight i f' with depot := depot } : Works C T F).flights i = f' from
              setFlight_self] at hone'
      next hparty =>
        obtain ⟨depot, hdepot, rfl⟩ := Option.map_eq_some_iff.mp hstep
        have hdraw : ∀ x job, a ≠ .draw x job := by
          rintro ⟨i, k⟩ job rfl
          exact hparty i k rfl
        refine h.redepot hfaithful hdepot ?_ hdraw ?_
        · cases a with
          | complete c job tables => exact hok
          | remove path => exact ⟨hok.1, fun _ _ _ name size _ => hok.2 _ name size⟩
          | draw x job => exact absurd rfl (hdraw x job)
          | _ => trivial
        · rintro job name size rfl
          exact hok.2 job name size rfl

end Coupled

/-- **Every run.** -/
theorem reach_coupled (hfaithful : studio.Faithful)
    (h : (worksSystem studio directory cfg).Reach (Orderly directory) s) :
    s.Coupled studio directory cfg := by
  refine h.invariant ?_ fun s a s' hcoupled hok hstep => hcoupled.next hfaithful hok hstep
  intro _ hinit
  obtain ⟨flights, depot, hleft, rfl⟩ := hinit
  have hpool : plotSystem.Reach System.always (.started flights) := .init ⟨flights, rfl⟩
  have hcallers : ∀ i x, x ∉ ((started flights depot).flights i).callers := fun _ _ hmem =>
    absurd hmem List.not_mem_nil
  refine ⟨PlotPool.reach_good hpool, fun i => .init rfl, ?_, ?_, ?_, hleft.proper, ?_, ?_⟩
  · exact fun i c command hmem => absurd hmem (hcallers i _)
  · exact fun jobId hknown => absurd rfl hknown
  · exact fun i k jobId x hx => absurd ((hleft.drawers (i, k)).symm.trans hx) (by simp)
  · intro i c r hreported
    obtain ⟨command, hmem⟩ := hreported.caller
    exact absurd hmem (hcallers i _)
  · intro jobId hdrawn
    have hdrawn : none = some [PlotOutcome.drawn] := hdrawn
    exact absurd hdrawn (by simp)

/-- **Plots, from the request to the file.**  In every orderly run of the works, with any number of
plot flights, coordinators and requests, however the loops, the flights, the children and the
coordinators are interleaved, and wherever a child or a coordinator is killed: a child that draws
a job is alive, its loop's command for the job is out, and no other child draws the job; what is
read under the paths of a job's tables and figures is whole, the tables are those of the job's
run, and the figures were drawn from them; and where the last thing that became of a job is that
it was drawn, each of its figures stands in its place. -/
theorem drawn_plots_stand (hfaithful : studio.Faithful)
    (h : (worksSystem studio directory cfg).Reach (Orderly directory) s) :
    (∀ i k jobId x, s.depot.drawers (i, k) = some (jobId, x) →
      ((s.flights i).children k).alive = true ∧ s.pool.Sends i jobId ∧
        ∀ i' k' y, s.depot.drawers (i', k') = some (jobId, y) → i' = i ∧ k' = k) ∧
    Shown studio directory s.depot.ran s.depot.files.read ∧
    ∀ jobId, s.pool.fate jobId = some [.drawn] → s.depot.Stands studio directory jobId := by
  have hcoupled := reach_coupled hfaithful h
  refine ⟨fun i k jobId x hx => ⟨?_, hcoupled.sends hx, fun i' k' y hy => hcoupled.alone hy hx⟩,
    hcoupled.proper.shown, hcoupled.drawn⟩
  obtain ⟨_, _, hbusy, -⟩ := hcoupled.draws hx
  exact hbusy.1

/-! ### One run

The run is computed, step by step, and each of its steps is checked for what the theorem asks of a
run.
-/

omit [DecidableEq C] in
/-- A loop calls its own flight only. -/
theorem dispatch_flights {j : Nat} (hj : j ≠ i) : (s.dispatch i).flights j = s.flights j := by
  unfold dispatch
  split
  next =>
    dsimp only
    split
    next => exact setFlight_other hj
    next =>
      rw [sent_flights]
      exact setFlight_other hj
  next => rfl

/-- A step is one flight's at most. -/
theorem next_flights {a : WorksAction C T} {j : Nat} (hj : a.site ≠ some j)
    (hstep : s.next studio directory cfg a = some s') : s'.flights j = s.flights j := by
  have hdrains : ∀ {b i}, s.drains b i = some s' → j ≠ i → s'.flights j = s.flights j := by
    intro b i hdrains hi
    obtain ⟨pool, -, rfl⟩ := Option.map_eq_some_iff.mp hdrains
    exact dispatch_flights hi
  cases a with
  | enqueue jobId =>
      simp only [Works.next] at hstep
      obtain ⟨pool, -, rfl⟩ := Option.map_eq_some_iff.mp hstep
      rfl
  | begin i | awake i | paused i => exact hdrains hstep fun heq => hj (by rw [heq]; rfl)
  | flight i a =>
      have hi : j ≠ i := fun heq => hj (by rw [heq]; rfl)
      simp only [Works.next] at hstep
      split at hstep
      next =>
        obtain ⟨r, -, rfl⟩ := Option.map_eq_some_iff.mp hstep
        obtain ⟨depot, hkilled, -⟩ :=
          killed_eq studio directory (s.setFlight i r.1) i ((s.flights i).victim a)
        rw [hkilled]
        unfold told
        split
        next => exact setFlight_other hi
        next =>
          rw [dispatch_flights hi, sent_flights]
          exact setFlight_other hi
      next => exact absurd hstep (by simp)
  | takes i k =>
      have hi : j ≠ i := fun heq => hj (by rw [heq]; rfl)
      obtain ⟨f', -, hstep⟩ := Option.bind_eq_some_iff.mp hstep
      obtain ⟨x, -, hstep⟩ := Option.bind_eq_some_iff.mp hstep
      obtain ⟨job, -, hstep⟩ := Option.bind_eq_some_iff.mp hstep
      obtain ⟨depot, -, rfl⟩ := Option.map_eq_some_iff.mp hstep
      exact setFlight_other hi
  | depot a error =>
      simp only [Works.next] at hstep
      split at hstep
      next i k hparty =>
        have hi : j ≠ i := fun heq => hj (by simp [WorksAction.site, hparty, heq])
        split at hstep
        next => exact absurd hstep (by simp)
        next =>
          obtain ⟨depot, -, hstep⟩ := Option.bind_eq_some_iff.mp hstep
          split at hstep
          next =>
            obtain rfl := Option.some.inj hstep
            rfl
          next =>
            obtain ⟨f', -, rfl⟩ := Option.map_eq_some_iff.mp hstep
            exact setFlight_other hi
      next =>
        obtain ⟨depot, -, rfl⟩ := Option.map_eq_some_iff.mp hstep
        rfl

/-- The steps on names that `_JOB_ID_OK` takes, none of which takes a file away. -/
def plainly (s : Works C T F) : WorksAction C T → Bool
  | .enqueue jobId => PlotQueue.jobIdOk jobId
  | .depot (.complete _ jobId _) _ => PlotQueue.jobIdOk jobId && (s.depot.ran jobId).isNone
  | .depot (.remove _) _ => false
  | _ => true

/-- Such a step, where no two bring-ups of its flight are active after it. -/
def plainNext (studio : Studio T F) (directory : String) (cfg : CoordSettings) (s : Works C T F)
    (a : WorksAction C T) : Option (Works C T F) :=
  (s.next studio directory cfg a).bind fun s' =>
    if s.plainly a = true ∧ ∀ i, a.site = some i → Flight.AtMostOneBringUp (s'.flights i) then
      some s'
    else none

/-- What such steps lead to is reached. -/
theorem plain_reach : ∀ (l : List (WorksAction C T)) {s s' : Works C T F},
    (worksSystem studio directory cfg).Reach (Orderly directory) s →
      (∀ i, Flight.AtMostOneBringUp (s.flights i)) →
        System.follow (plainNext studio directory cfg) l s = some s' →
          (worksSystem studio directory cfg).Reach (Orderly directory) s' := by
  intro l
  induction l with
  | nil =>
      intro s s' hs _ h
      rw [← Option.some.inj h]
      exact hs
  | cons a rest ih =>
      intro s s' hs hone h
      obtain ⟨t, ht, hrest⟩ := Option.bind_eq_some_iff.mp h
      obtain ⟨t', hstep, hif⟩ := Option.bind_eq_some_iff.mp ht
      split at hif
      next hok =>
        obtain rfl := Option.some.inj hif
        have hone' : ∀ i, Flight.AtMostOneBringUp (t'.flights i) := by
          intro i
          by_cases hi : a.site = some i
          · exact hok.2 i hi
          · rw [next_flights hi hstep]
            exact hone i
        refine ih (hs.step ⟨hone', ?_⟩ hstep) hone' hrest
        cases a with
        | enqueue jobId => exact hok.1
        | depot a error =>
            cases a with
            | complete c jobId tables =>
                obtain ⟨hid, hnew⟩ := Bool.and_eq_true_iff.mp hok.1
                exact ⟨plainId_of_ok hid, Option.isNone_iff_eq_none.mp hnew⟩
            | remove path => exact absurd hok.1 (by simp [plainly])
            | _ => trivial
        | _ => trivial
      next => exact absurd hif (by simp)

/-- The studio of the run below: a table is a byte, and there is one figure, which is another. -/
def oneFigure : Studio Unit Unit where
  toParquet _ := [1]
  readTable _ := .ok ()
  plot _ _ _ := .ok fun attr => if attr = "wfDiagPlot" then some () else none
  png _ _ := [2]

/-- A job is asked for before its flight has come up, drawn once its table is there, and drawn by
the time its answer is in. -/
def oneDraw : List (WorksAction Unit Unit) :=
  [.enqueue "job", .begin 0,
    .flight 0 (.resumeBringUp .startup), .flight 0 (.runExecutor none), .flight 0 (.runExecutor none),
    .flight 0 (.resumeBringUp .startup), .flight 0 (.boot 0 .hello), .flight 0 (.runExecutor none),
    .flight 0 (.resumeBringUp .startup), .flight 0 .resumeCaller, .flight 0 (.runExecutor none),
    .takes 0 0,
    .depot (.complete () "job" ⟨(), .empty⟩) "", .depot (.start (.clerk ())) "",
    .depot (.write (.clerk ()) 1) "", .depot (.place (.clerk ())) "",
    .depot (.read (0, 0)) "", .depot (.missing (0, 0)) "", .depot (.missing (0, 0)) "",
    .depot (.plot (0, 0)) "",
    .depot (.start (.drawer (0, 0))) "", .depot (.write (.drawer (0, 0)) 1) "",
    .depot (.place (.drawer (0, 0))) "",
    .depot (.start (.drawer (0, 0))) "", .depot (.write (.drawer (0, 0)) 1) "",
    .depot (.place (.drawer (0, 0))) "", .depot (.done (0, 0)) "",
    .flight 0 (.runExecutor none), .flight 0 .resumeCaller]

/-- Its figure stands. -/
theorem drawn_plots_stand_one : ∃ s : Works Unit Unit Unit, s.pool.fate "job" = some [.drawn] ∧
    s.depot.Stands oneFigure "/stamps" "job" := by
  obtain ⟨s, hs, hdrawn⟩ : ∃ s, System.follow (plainNext oneFigure "/stamps" .standard) oneDraw
      (started 1 .empty) = some s ∧ s.pool.fate "job" = some [.drawn] := ⟨_, rfl, rfl⟩
  have hreach : (worksSystem oneFigure "/stamps" .standard).Reach (Orderly "/stamps") s := by
    refine plain_reach oneDraw (.init ⟨1, .empty, Depot.left_empty, rfl⟩) (fun i => ?_) hs
    exact fun hboth => absurd hboth.1 (by simp [started, Flight.started, BringUp.active])
  exact ⟨s, hdrawn, (drawn_plots_stand (fun _ => rfl) hreach).2.2 "job" hdrawn⟩

end Works

end DonutServer
