/-
A reply reaches the caller whose command it answers.

Nothing on the pipe says which command a reply is for, so this is a fact about the
order of things, on both sides.  On the front-end's, a caller that gets a reply held
the lock and the one conversation there was, and the message came out of a pipe with
nothing else in it.  On the child's, each command is answered once before the next is
taken.  The two meet in `coordinatorProgram`: the message is what it made of the
command that was written.
-/
import DonutServer.Coordinator.Isolation
import DonutServer.Coordinator.Loop
import DonutServer.Flight.Primed

namespace DonutServer

open Effect

variable {κ σ : Type} {prog : ChildProgram κ σ} {cfg : CoordSettings}

namespace Flight

variable {f f' : Flight κ} {e : Effects}

/-! ### What ends a call

A call ends in three ways, and only one of them is a response: its caller was on the thread, and
the thread came back with a message.  The lemmas rule out every other step as the source of one.
-/

theorem refusal_not_response (f : Flight κ) (s : Sent) : f.refusal ≠ .response s := by
  unfold refusal
  split <;> exact Result.noConfusion

theorem exchange_finished {c c' : CallId} {command : Command} {s : Sent} :
    (f.exchange c command).2.finished ≠ some (c', .response s) := by
  unfold exchange
  split
  · intro h
    exact absurd (Prod.mk.inj (Option.some.inj h)).2 (by simp)
  · exact (Option.some_ne_none _).symm

theorem underLock_finished {c c' : CallId} {command : Command} {s : Sent} :
    (f.underLock c command).2.finished ≠ some (c', .response s) := by
  unfold underLock
  split
  · exact exchange_finished
  split
  · exact (Option.some_ne_none _).symm
  · intro h
    exact refusal_not_response f s (Prod.mk.inj (Option.some.inj h)).2

/-- A bring-up task ends nobody's call. -/
theorem resumeBringUp_finished {w : BringUpTask} (h : f.resumeBringUp cfg prog w = some (f', e)) :
    e.finished = none := by
  have hhello : ∀ out, (f.afterHello cfg w out).2.finished = none := by
    intro out
    unfold afterHello
    split
    · rfl
    · dsimp only
      split <;> rfl
  have hreprime : ∀ args out, (f.afterReprime cfg w args out).2.finished = none := by
    intro args out
    unfold afterReprime
    split
    · rfl
    · dsimp only
      split <;> rfl
  cases resumeBringUp_resumed h with
  | hello w k out htask => exact hhello out
  | reprimed w k tag args out htask => exact hreprime args out
  | startup | restart | queued | backoff | reaped | gaveUp => rfl

theorem afterExchange_finished {c c' : CallId} {command : Command} {out : Outcome} {s : Sent}
    (h : (f.afterExchange c command out).2.finished = some (c', .response s)) :
    c = c' ∧ out = .reply s := by
  unfold afterExchange at h
  split at h
  · exact absurd (Prod.mk.inj (Option.some.inj h)).2 (by simp)
  · split at h
    all_goals
      obtain ⟨hc, hs⟩ := Prod.mk.inj (Option.some.inj h)
      rw [Result.response.inj hs]
      exact ⟨hc, rfl⟩

/-- **Only a caller that awaits the thread gets a response**, and it is the one the
thread came back with. -/
theorem finished_response {a : FlightAction σ} {c : CallId} {s : Sent}
    (h : f.next cfg prog a = some (f', e)) (hfin : e.finished = some (c, .response s)) :
    a = .resumeCaller ∧ ∃ command k tag,
      f.lock.owner = some (.call c command (.exchanging k tag (some (.reply s)))) := by
  cases a with
  | call c' command =>
      have he : _ = e := congrArg Prod.snd (Option.some.inj h)
      rw [← he] at hfin
      unfold call at hfin
      split at hfin
      · exact absurd hfin underLock_finished
      · exact absurd hfin (by simp)
  | takeLock =>
      cases takeLock_locked h with
      | call c' command lock hnext => exact absurd hfin underLock_finished
      | restart lock hnext => exact absurd hfin (by simp)
  | resumeCaller =>
      cases resumeCaller_wentOn h with
      | exchanges c' command howner hready => exact absurd hfin exchange_finished
      | refused c' command howner hready =>
          exact absurd (Prod.mk.inj (Option.some.inj hfin)).2 (refusal_not_response f s)
      | answered c' command k tag out howner =>
          obtain ⟨rfl, rfl⟩ := afterExchange_finished hfin
          exact ⟨rfl, command, k, tag, howner⟩
  | startupTimeout =>
      cases startupTimeout_timedOut h with
      | turnedAway c' command woken howner =>
          exact absurd (Prod.mk.inj (Option.some.inj hfin)).2 (by simp)
  | resumeBringUp w =>
      rw [resumeBringUp_finished h] at hfin
      exact absurd hfin (by simp)
  | requestRestart reason =>
      have he : _ = e := congrArg Prod.snd (Option.some.inj h)
      rw [← he] at hfin
      unfold requestRestart at hfin
      split at hfin
      · exact absurd hfin (by simp)
      · split at hfin <;> exact absurd hfin (by simp)
  | runExecutor fails | boot k b | receive k | answer k world | finishDeferred k | die k =>
      simp only [next, quietly, Option.map_eq_some_iff, Prod.mk.injEq] at h
      obtain ⟨_, _, _, rfl⟩ := h
      exact absurd hfin (by simp)

/-! ### The front-end's half

What the thread came back with was in the pipe of the child that the command had been written to,
and was the only message in it; the invariant says that it is the answer.
-/

/-- **A caller's response is its own child's answer to its own command.** -/
theorem response_answers (hi : Inv prog f) {c : CallId} {command : Command} {k : ChildId}
    {tag : Tag} {s : Sent}
    (howner : f.lock.owner = some (.call c command (.exchanging k tag (some (.reply s))))) :
    f.written tag = some (.call c, k, command) ∧ s.sender = k ∧
      s.answers = some (tag, command) ∧ ∃ world mem, (prog.run world command mem).1 = s.msg := by
  obtain ⟨_, _, _, _, hexchange⟩ := hi.serial.served howner
  obtain ⟨_, hwritten, _, hanswers⟩ := hexchange
  obtain ⟨world, mem, hran⟩ := hanswers.ran
  exact ⟨hwritten, hanswers.sender, hanswers.answers, world, mem, congrArg Prod.fst hran⟩

/-! ### Both halves

The child's half is the reply of the loop, which the coordinator sends once for each command and
before it takes the next.  The first message of a child is no reply and may be the last, which is
why the claim speaks of replies.
-/

variable {S : Stack} {env : Env S}

/-- **Replies pair up with commands.**  In a run with at most one `_bring_up` at a time, a
response is the message that the child the caller's command was written to made of that
very command, and none of the others; and the child's loop, from its start, is one first
message and then one answer to each command in turn. -/
theorem replies_paired {f : Flight (Globals S)}
    (h : (flightSystem cfg (coordinatorProgram env)).Reach oneBringUp f) :
    (∀ a f' e c s, f.next cfg (coordinatorProgram env) a = some (f', e) →
      e.finished = some (c, .response s) → ∃ command k tag,
        f.lock.owner = some (.call c command (.exchanging k tag (some (.reply s)))) ∧
        f.written tag = some (.call c, k, command) ∧ s.sender = k ∧
        s.answers = some (tag, command) ∧ s.msg.isReply = true ∧
        ∃ world mem, ((coordinatorProgram env).run world command mem).1 = s.msg) ∧
    ∀ incoming world,
      SpeaksInTurn ((coordinatorMain env incoming).outcome ⟨⟨.fresh, world⟩, []⟩).2.events := by
  refine ⟨?_, fun incoming world => (coordinatorMain_speaks env incoming world).inTurn⟩
  intro a f' e c s hstep hfin
  obtain ⟨-, command, k, tag, howner⟩ := finished_response hstep hfin
  obtain ⟨hwritten, hsender, hanswers, world, mem, hran⟩ := response_answers (reach_inv h) howner
  refine ⟨command, k, tag, howner, hwritten, hsender, hanswers, ?_, world, mem, hran⟩
  rw [← hran]
  exact attempt_isReply env command _

/-- A flight of the bench is brought up and prepares, up to the reply. -/
def benchPreparing : List (FlightAction (World benchStack)) :=
  [.resumeBringUp .startup, .runExecutor none, .runExecutor none, .resumeBringUp .startup,
    .boot 0 .hello, .runExecutor none, .resumeBringUp .startup,
    .call 0 (.prepare (benchPrepare "r_57")), .runExecutor none, .receive 0, .answer 0 benchWorld,
    .runExecutor none]

/-- The prepare of the bench gets the answer of child 0 to it. -/
theorem replies_paired_prepare :
    ∃ (f f' : Flight (Globals benchStack)) (e : Effects) (s : Sent),
      f.next .standard (coordinatorProgram benchEnv) .resumeCaller = some (f', e) ∧
      e.finished = some (0, .response s) ∧ s.sender = 0 ∧
      s.answers = some (0, .prepare (benchPrepare "r_57")) ∧ s.msg.isReply = true := by
  obtain ⟨f, hf⟩ : ∃ f, System.follow (calmNext .standard (coordinatorProgram benchEnv))
      benchPreparing (Flight.started (coordinatorProgram benchEnv)) = some f := ⟨_, rfl⟩
  have hreach := reach_oneBringUp (reach_safe (calm_reach hf))
  obtain ⟨f', e, s, hstep, hfin, hsender, hanswers⟩ : ∃ f' e s,
      f.next .standard (coordinatorProgram benchEnv) .resumeCaller = some (f', e) ∧
      e.finished = some (0, .response s) ∧ s.sender = 0 ∧
      s.answers = some (0, .prepare (benchPrepare "r_57")) := by
    obtain rfl := Option.some.inj hf
    exact ⟨_, _, _, rfl, rfl, rfl, rfl⟩
  obtain ⟨_, _, _, _, _, _, _, hreply, _⟩ := (replies_paired hreach).1 _ _ _ _ _ hstep hfin
  exact ⟨f, f', e, s, hstep, hfin, hsender, hanswers, hreply⟩

/-- **A run without a hello.**  Where the calib directory holds nothing, the one message
is a fatal one. -/
theorem no_hello_after_fatal :
    ∃ (env : Env benchStack) (error : String),
      ((coordinatorMain env []).outcome ⟨⟨.fresh, benchWorld⟩, []⟩).2.events =
        [.sent (.fatal error)] ∧
      ¬ ∃ rest, ((coordinatorMain env []).outcome ⟨⟨.fresh, benchWorld⟩, []⟩).2.events =
        .sent .hello :: rest := by
  refine ⟨{ benchEnv with listFiles := fun _ => [] }, _, rfl, ?_⟩
  intro hc
  obtain ⟨rest, h⟩ := hc
  exact absurd (PipeEvent.sent.inj (List.cons.inj h).1) (by simp)

end Flight

end DonutServer
