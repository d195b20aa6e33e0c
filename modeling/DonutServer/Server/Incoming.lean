/-
The answers that are on their way to the requests.

An answer is on its way from when a child makes it until its request goes on with it: with
its flight first, then in the hands of the task.  While it is, its request is where it was
when it sent the command; and an answer that is on its way after a step was so before, or is
what a child has just made of the command its request waits for.

The two theorems that use this want different things of an answer, one that it belongs to its
request and the other that it is worth what it is taken for.  Both are about every answer on its
way, so they have in common where such an answer can have come from, and that is shown once here.
-/
import DonutServer.Flight.Answered
import DonutServer.Server.JobLife

namespace DonutServer

open Function

variable {κ σ : Type} {n : Nat} {cfg : CoordSettings} {prog : ChildProgram κ σ}

namespace Server

variable {s s' : Server κ n} {c : CallId} {r : Sent}

/-- The answer `r` is on its way to request `c`: in the hands of the flight's executor, in a call
that has come to its end, or held by the task that is about to go on. -/
inductive Incoming (s : Server κ n) (c : CallId) (r : Sent) : Prop
  | reported (i : FlightId n) (h : (s.flights i).Reported c r)
  | returned (h : s.running = some (c, .result (.response r)))

/-- The answer `r` is what a child makes in this step of the command that request `c` sent. -/
structure MadeFor (prog : ChildProgram κ σ) (s : Server κ n) (a : ServerAction σ n) (c : CallId)
    (r : Sent) (i : FlightId n) (k : ChildId) (world : σ) (command : Command) : Prop where
  action : a = .flight i (.answer k world)
  busy : ∃ tag, (s.flights i).Busy k tag command
  sent : s.Awaits c i command
  msg : r.msg = (prog.run world command ((s.flights i).children k).mem).1

/-- A request that no flight knows of goes on: nobody else's answer moves. -/
theorem Incoming.step {c₀ : CallId} {handler : Handler n} (h : s'.Incoming c r)
    (huncalled : s.Uncalled c₀) (hflights : s'.flights = s.flights)
    (hhandlers : s'.handlers = update s.handlers c₀ (some handler))
    (hrunning : ∀ c r, s'.running ≠ some (c, .result r)) :
    s'.handlers c = s.handlers c ∧ s.Incoming c r := by
  cases h with
  | returned h => exact absurd h (hrunning c _)
  | reported i h =>
      rw [hflights] at h
      have hne : c ≠ c₀ := by
        intro heq
        subst heq
        obtain ⟨command, hmem⟩ := h.caller
        exact huncalled i command hmem
      exact ⟨by rw [hhandlers, update_of_ne hne], .reported i h⟩

/-- A flight takes a step, which lets a call come to its end. -/
theorem Incoming.flight {i : FlightId n} {a : FlightAction σ} {f : Flight κ} {e : Effects}
    (h : s'.Incoming c r) (hsound : s.Sound prog) (hsound' : s'.Sound prog)
    (hflights : s'.flights = update s.flights i f)
    (hrunning : s'.running = e.finished.map fun q => (q.1, .result q.2))
    (hstep : (s.flights i).next cfg prog a = some (f, e)) :
    s.Incoming c r ∨ ∃ k world tag command, a = .answer k world ∧ (s.flights i).Busy k tag command ∧
      (s.flights i).Exchanging c command k tag none ∧
        r.msg = (prog.run world command ((s.flights i).children k).mem).1 := by
  have hf : s'.flights i = f := by rw [hflights, update_self]
  have hi' := (hsound' i).1
  rw [hf] at hi'
  cases h with
  | returned h =>
      rw [hrunning] at h
      obtain ⟨⟨c', q⟩, hfin, heq⟩ := Option.map_eq_some_iff.mp h
      obtain ⟨rfl, hq⟩ := Prod.mk.inj heq
      obtain rfl : q = .response r := Resumption.result.inj hq
      obtain ⟨-, command, k, tag, howner⟩ := Flight.finished_response hstep hfin
      exact Or.inl (.reported i (.returned k tag command howner))
  | reported j h =>
      by_cases hj : j = i
      · subst hj
        rw [hf] at h
        refine (Flight.next_reported (hsound j).1 hi' hstep h).imp (.reported j) ?_
        intro hmade
        obtain ⟨k, world, tag, command, ha, hbusy, howner, -, hmsg⟩ := hmade
        exact ⟨k, world, tag, command, ha, hbusy, howner, hmsg⟩
      · rw [hflights, update_of_ne hj] at h
        exact Or.inl (.reported j h)

/-- A request that no flight knows of sends a command: no answer moves. -/
theorem Incoming.send {c₀ : CallId} {i : FlightId n} {t : Server κ n} {command : Command}
    {handler : Handler n} (cfg : CoordSettings) (h : (t.sendCommand i c₀ command).Incoming c r)
    (hsound : s.Sound prog) (huncalled : s.Uncalled c₀) (hflights : t.flights = s.flights)
    (hhandlers : t.handlers = update s.handlers c₀ (some handler))
    (hrunning : ∀ c r, t.running ≠ some (c, .result r)) :
    t.handlers c = s.handlers c ∧ s.Incoming c r := by
  have ht : t.Sound prog := by
    intro j
    rw [hflights]
    exact hsound j
  have hcall : (t.flights i).next cfg prog (.call c₀ command) =
      some (((t.flights i).call c₀ command).1, ((t.flights i).call c₀ command).2) := rfl
  have hbefore := h.flight ht (ht.sendCommand cfg) rfl rfl hcall
  rcases hbefore with hbefore | ⟨_, _, _, _, heq, -⟩
  · exact hbefore.step huncalled hflights hhandlers hrunning
  · exact absurd heq (by simp)

/-- **Where an answer comes from.**  One that is on its way after a step was so before, or is
what a child has just made of the command its request sent; and its request is where it was. -/
theorem next_incoming {a : ServerAction σ n} (hsound : s.Sound prog) (hsound' : s'.Sound prog)
    (hawaited : s.Awaited) (hstep : s.next cfg prog a = some s') (h : s'.Incoming c r) :
    s'.handlers c = s.handlers c ∧
      (s.Incoming c r ∨ ∃ i k world command, MadeFor prog s a c r i k world command) := by
  have hm := next_moves hstep
  generalize hr : s.running = q at hm
  have hs₀ : Sound prog { s with running := none } := hsound
  have ha₀ : Awaited { s with running := none } :=
    ⟨hawaited.nodup, hawaited.waits, fun c r hr => absurd hr (by simp)⟩
  have hrest : ∀ c r, (none : Option (CallId × Resumption)) ≠ some (c, .result r) := by simp
  have hdone : ∀ {c : CallId} {result : Result}, q = some (c, .result result) →
      Uncalled { s with running := none } c := fun hq => hawaited.ended _ _ (hr.trans hq)
  -- Whoever goes on is known to no flight, so what was on its way there is still.
  have hback : ∀ {handlers : CallId → Option (Handler n)},
      handlers c = s.handlers c ∧ Incoming { s with running := none } c r →
      handlers c = s.handlers c ∧
        (s.Incoming c r ∨ ∃ i k world command, MadeFor prog s a c r i k world command) := by
    intro handlers hb
    refine ⟨hb.1, Or.inl ?_⟩
    cases hb.2 with
    | returned h => exact absurd h (hrest c _)
    | reported i h => exact .reported i h
  cases hm with
  | tick =>
      refine @hback s.handlers ⟨rfl, ?_⟩
      cases h with
      | returned h => exact absurd h (hrest c _)
      | reported i h => exact .reported i h
  | refused c _ _ _ hc | pushQueued c _ _ hc | pushBegun c _ _ hc =>
      exact hback (h.step (ha₀.uncalled_of_none hc) rfl rfl hrest)
  | resolve c _ _ _ _ hc | prepare c _ _ _ hc =>
      exact hback (h.send cfg hs₀ (ha₀.uncalled_of_none hc) rfl rfl hrest)
  | unresolved c | turnedDown c | unprepared c | prepareFailed c | prepared c | ingested c
  | pushed c =>
      exact hback (h.step (hdone rfl) rfl rfl hrest)
  | guarded c | preparedSubmitted c =>
      refine hback (h.step (hdone rfl) rfl rfl fun c' r' heq => ?_)
      exact absurd (Prod.mk.inj (Option.some.inj heq)).2 (by simp)
  | prepareSubmitted c _ _ _ hc =>
      exact hback (h.send cfg hs₀ (ha₀.uncalled_at hc rfl) rfl rfl hrest)
  | invalid c _ _ _ hc | uningested c _ _ _ _ _ hc | pushGranted c _ _ _ _ _ hc
  | headerRefused c _ _ _ _ _ _ hc | layoutRefused c _ _ _ _ _ hc | layoutCrashed c _ _ _ _ hc =>
      exact hback (h.step (ha₀.uncalled_at hc rfl) rfl rfl hrest)
  | ingest c _ _ _ _ _ _ _ hc =>
      rcases hc with ⟨hc, _⟩ | ⟨_, _, hc, _⟩
      · exact hback (h.send cfg hs₀ (ha₀.uncalled_of_none hc) rfl rfl hrest)
      · exact hback (h.send cfg hs₀ (ha₀.uncalled_at hc rfl) rfl rfl hrest)
  | overflow c _ _ _ _ _ _ hp hc | disconnect c _ _ _ _ hp hc =>
      exact hback (h.step (ha₀.uncalled_at hc (by cases hp <;> rfl)) rfl rfl hrest)
  | chunkHeader c _ _ _ _ _ _ hc _ _ _ hrunning | chunkBody c _ _ _ _ _ _ hc _ _ _ hrunning
  | headerAccepted c _ _ _ _ _ _ _ hc _ hrunning =>
      exact hback
        (h.step (ha₀.uncalled_at hc rfl) rfl rfl (reading_running hrunning (by simp)))
  | dispatched c _ _ _ _ _ _ hc =>
      exact hback (h.send cfg hs₀ (ha₀.uncalled_at hc rfl) rfl rfl hrest)
  | flight i b f e hcall hflight =>
      have hsame : (noteLoss i e.loss { s with running := none }).handlers c = s.handlers c :=
        congrFun (noteLoss_locks (s := { s with running := none })).2 c
      refine ⟨hsame, ?_⟩
      rcases h.flight hs₀ hsound' rfl rfl hflight with
        hbefore | ⟨k, world, tag, command, rfl, hbusy, howner, hmsg⟩
      · exact (@hback s.handlers ⟨rfl, hbefore⟩).2
      · have hsent : s.Awaits c i command := hawaited.waits i c command howner.mem_callers
        exact Or.inr ⟨i, k, world, command, rfl, ⟨tag, hbusy⟩, hsent, hmsg⟩

end Server

end DonutServer
