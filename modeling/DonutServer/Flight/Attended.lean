/-
A child that works is waited for.

Nothing tells a child that whoever sent it a command has given up.  It need not be told: the
thread gives up on a command only once the child is gone, so while a live child has a command in
its pipe or in its hands, the thread still waits for the answer, and the task that sent it waits
for the thread.  What a caller is told of its command is therefore told when nobody is at it.
-/
import DonutServer.Flight.Callers
import DonutServer.Flight.Reading

namespace DonutServer

open Function

variable {κ σ : Type} {prog : ChildProgram κ σ} {cfg : CoordSettings}

/-! ### A child at work

To be at work is to have some command, in the pipe or in hand, so that it says of a child what
`Child.Reading` says of a child and a command.  What holds of the one follows from what was shown
of the other.
-/

/-- The child lives, and has a command in its pipe or in its hands. -/
def Child.AtWork (c : Child κ) : Prop :=
  c.alive = true ∧ (c.inbox ≠ [] ∨ ∃ tag command, c.phase = .busy tag command)

/-- A child at work is at a command, the first in its pipe if it has taken none. -/
theorem Child.atWork_iff {c : Child κ} : c.AtWork ↔ ∃ tag command, c.Reading tag command := by
  constructor
  · rintro ⟨halive, hinbox | ⟨tag, command, hbusy⟩⟩
    · obtain ⟨⟨tag, command⟩, rest, heq⟩ := List.exists_cons_of_ne_nil hinbox
      exact ⟨tag, command, halive, Or.inr (heq ▸ List.mem_cons_self)⟩
    · exact ⟨tag, command, halive, Or.inl hbusy⟩
  · rintro ⟨tag, command, halive, hbusy | hinbox⟩
    · exact ⟨halive, Or.inr ⟨tag, command, hbusy⟩⟩
    · exact ⟨halive, Or.inl (List.ne_nil_of_mem hinbox)⟩

namespace Flight

variable {f f' : Flight κ} {e : Effects}

/-! ### Every run

`Attended` was shown to survive every step beside the one conversation that is going on.  Over the
runs with one bring-up at a time there is such a conversation in every state, so the induction over
the run is two lines.
-/

theorem reach_attended (h : (flightSystem cfg prog).Reach oneBringUp f) : f.Attended := by
  refine h.invariant' ?_ ?_
  · rintro _ rfl
    exact started_attended
  · rintro f a f' hr ha - ⟨e, hstep⟩
    exact ha.next (reach_inv hr).serial hstep

/-- Two children that are at work are one: the thread waits for both, and has one job. -/
theorem Attended.one_at_work {j k : ChildId} (h : f.Attended) (hs : Serial prog f)
    (hj : (f.children j).AtWork) (hk : (f.children k).AtWork) : j = k := by
  obtain ⟨_, _, hj⟩ := Child.atWork_iff.mp hj
  obtain ⟨_, _, hk⟩ := Child.atWork_iff.mp hk
  obtain ⟨o, hex, -⟩ := h.awaiting hs hj
  obtain ⟨o', hex', -⟩ := h.awaiting hs hk
  exact (Job.awaitReply.inj (List.cons.inj (hex.symm.trans hex')).1).2.1

/-! ### Calls

A call is known by a name, and while two calls that wait have different names an answer can be told
from another's.  Names may be used again once a call has ended, as identities of tasks are.
-/

/-- A call goes by a name that no other call has while it waits. -/
def ownName (f : Flight κ) : FlightAction σ → Bool
  | .call c _ => c ∉ f.callers.map Prod.fst
  | _ => true

/-- Runs in which at most one `_bring_up` is active at a time; no two calls that wait go by one
name. -/
def ownCalls (f : Flight κ) (a : FlightAction σ) (f' : Flight κ) : Prop :=
  AtMostOneBringUp f' ∧ f.ownName a = true

theorem reach_ownCalls (h : (flightSystem cfg prog).Reach ownCalls f) :
    (flightSystem cfg prog).Reach oneBringUp f := h.mono fun _ _ _ _ hok _ => hok.1

/-- The calls before a step, and the one it makes. -/
theorem next_callers {a : FlightAction σ} (hown : f.ownName a = true)
    (hnodup : (f.callers.map Prod.fst).Nodup) (h : f.next cfg prog a = some (f', e)) :
    (f'.callers.map Prod.fst).Nodup ∧
      ∀ c result, e.finished = some (c, result) → c ∉ f'.callers.map Prod.fst := by
  have hleaves : ∀ l : List (CallId × Command), (l.map Prod.fst).Nodup → Leaves l (f', e) →
      (f'.callers.map Prod.fst).Nodup ∧
        ∀ c result, e.finished = some (c, result) → c ∉ f'.callers.map Prod.fst := by
    intro l hl hleft
    unfold Leaves at hleft
    split at hleft
    next hnone =>
      refine ⟨hl.sublist (List.Sublist.map Prod.fst hleft), fun c result hfin => ?_⟩
      exact absurd (hnone.symm.trans hfin) (by simp)
    next c result hsome =>
      obtain ⟨command, hsub⟩ := hleft
      have hnodup := hl.sublist (hsub.map Prod.fst)
      rw [List.map_cons, List.nodup_cons] at hnodup
      refine ⟨hnodup.2, fun c' result' hfin => ?_⟩
      obtain rfl := (Prod.mk.inj (Option.some.inj (hsome.symm.trans hfin))).1
      exact hnodup.1
  by_cases hcall : ∃ c command, a = .call c command
  · obtain ⟨c, command, rfl⟩ := hcall
    have hleft := call_leaves (f := f) c command
    rw [show f.call c command = (f', e) from Option.some.inj h] at hleft
    refine hleaves (f.callers ++ [(c, command)]) ?_ hleft
    rw [List.map_append, List.nodup_append]
    refine ⟨hnodup, List.nodup_singleton _, fun x hx y hy heq => ?_⟩
    rw [List.map_singleton, List.mem_singleton] at hy
    rw [heq, hy] at hx
    exact of_decide_eq_true hown hx
  · exact hleaves f.callers hnodup
      (next_leaves (fun c command heq => hcall ⟨c, command, heq⟩) h)

theorem reach_callers (h : (flightSystem cfg prog).Reach ownCalls f) :
    (f.callers.map Prod.fst).Nodup := by
  refine h.invariant (P := fun f => (f.callers.map Prod.fst).Nodup) ?_ ?_
  · intro _ heq
    subst heq
    exact List.nodup_nil
  · intro f a f' hnodup hok hc
    obtain ⟨e, hstep⟩ := hc
    exact (next_callers hok.2 hnodup hstep).1

/-- The child lives, and the command is in its pipe or in its hands. -/
def HasInHand (f : Flight κ) (k : ChildId) (tag : Tag) (command : Command) : Prop :=
  (f.children k).alive = true ∧
    ((tag, command) ∈ (f.children k).inbox ∨ (f.children k).phase = .busy tag command)

theorem HasInHand.reading {k : ChildId} {tag : Tag} {command : Command}
    (h : f.HasInHand k tag command) : (f.children k).Reading tag command := ⟨h.1, h.2.symm⟩

theorem HasInHand.atWork {k : ChildId} {tag : Tag} {command : Command}
    (h : f.HasInHand k tag command) : (f.children k).AtWork :=
  Child.atWork_iff.mpr ⟨tag, command, h.reading⟩

/-- **No command is worked on behind its caller's back.**  In a run with at most one `_bring_up`
at a time: whatever command a live child has in its pipe or in its hands, the task that sent it
is still waiting for the answer; one child at most has any; and once a call of `send_command` has
come to its end, with an answer, a loss or a refusal, no live child has its command. -/
theorem no_orphaned_work (h : (flightSystem cfg prog).Reach ownCalls f) :
    (∀ k tag command, f.HasInHand k tag command →
      ∃ o, f.written tag = some (o, k, command) ∧ f.Awaiting k tag command o) ∧
    (∀ j k, (f.children j).AtWork → (f.children k).AtWork → j = k) ∧
    ∀ a f' e c result, ownCalls f a f' → f.next cfg prog a = some (f', e) →
      e.finished = some (c, result) → ∀ k tag command, f'.HasInHand k tag command →
        f'.written tag ≠ some (.call c, k, command) := by
  have hawaited : ∀ {f : Flight κ}, (flightSystem cfg prog).Reach ownCalls f →
      ∀ k tag command, f.HasInHand k tag command →
        ∃ o, f.written tag = some (o, k, command) ∧ f.Awaiting k tag command o := by
    intro f hf k tag command hhand
    have hone := reach_ownCalls hf
    obtain ⟨o, -, hwritten, hawaits, -⟩ :=
      (reach_attended hone).awaiting (reach_inv hone).serial hhand.reading
    exact ⟨o, hwritten, hawaits⟩
  have hone := reach_ownCalls h
  refine ⟨hawaited h, fun j k => (reach_attended hone).one_at_work (reach_inv hone).serial, ?_⟩
  · intro a f' e c result hok hstep hfin k tag command hhand hwritten
    have hreach : (flightSystem cfg prog).Reach ownCalls f' := h.step hok ⟨e, hstep⟩
    obtain ⟨o, hwritten', hawaits⟩ := hawaited hreach k tag command hhand
    obtain rfl := (Prod.mk.inj (Option.some.inj (hwritten.symm.trans hwritten'))).1
    cases hawaits with
    | call c command howner =>
        have hwaits : c ∈ f'.callers.map Prod.fst := by
          rw [callers_of_owner howner]
          simp [Holder.caller]
        exact (next_callers hok.2 (reach_callers h) hstep).2 c result hfin hwaits

/-- A prepare has reached the child of a flight that has come up. -/
def primedHalfway : List (FlightAction Msg) :=
  [.resumeBringUp .startup, .runExecutor none, .runExecutor none, .resumeBringUp .startup,
    .boot 0 .hello, .runExecutor none, .resumeBringUp .startup,
    .call 0 (.prepare (barePrepare "2026-07-13")), .runExecutor none, .receive 0]

instance : Decidable (AtMostOneBringUp f) := inferInstanceAs (Decidable (¬ _))

/-- The steps of such runs. -/
def ownNext (cfg : CoordSettings) (prog : ChildProgram κ σ) (f : Flight κ) (a : FlightAction σ) :
    Option (Flight κ) :=
  (f.next cfg prog a).bind fun r =>
    if AtMostOneBringUp r.1 ∧ f.ownName a = true then some r.1 else none

theorem ownNext_reach {l : List (FlightAction σ)}
    (h : System.follow (ownNext cfg prog) l (Flight.started prog) = some f) :
    (flightSystem cfg prog).Reach ownCalls f := by
  refine System.Reach.follow ?_ l (.init rfl) h
  intro f a f' hstep
  obtain ⟨⟨g, e⟩, hg, hif⟩ := Option.bind_eq_some_iff.mp hstep
  dsimp only at hif
  split at hif
  next hok =>
    obtain rfl := Option.some.inj hif
    exact ⟨⟨e, hg⟩, hok⟩
  next => exact absurd hif (by simp)

/-- Its caller waits for it. -/
theorem no_orphaned_work_prepare : ∃ f : Flight Unit,
    f.HasInHand 0 0 (.prepare (barePrepare "2026-07-13")) ∧
      ∃ o, f.Awaiting 0 0 (.prepare (barePrepare "2026-07-13")) o := by
  obtain ⟨f, hf⟩ : ∃ f, System.follow (ownNext .standard .scripted) primedHalfway
      (Flight.started .scripted) = some f := ⟨_, rfl⟩
  have hhand : f.HasInHand 0 0 (.prepare (barePrepare "2026-07-13")) := by
    obtain rfl := Option.some.inj hf
    exact ⟨rfl, Or.inr rfl⟩
  obtain ⟨o, -, hawaits⟩ := (no_orphaned_work (ownNext_reach hf)).1 _ _ _ hhand
  exact ⟨f, hhand, o, hawaits⟩

end Flight

end DonutServer
