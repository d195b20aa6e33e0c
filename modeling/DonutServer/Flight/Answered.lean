/-
From the child's answer to its caller.

A child that has taken a command stays at it until it answers or dies, and what it answers stays
on its way until the caller has it: in the pipe, then with the caller.  Nothing else is ever on
its way to a caller.
-/
import DonutServer.Flight.Attended

namespace DonutServer

open Function

variable {κ σ : Type} {prog : ChildProgram κ σ} {cfg : CoordSettings}

namespace Flight

variable {f f' : Flight κ} {e : Effects} {k : ChildId} {tag : Tag} {command : Command}

/-! ### A child that is at a command

A child that has taken a command has one step left to take on its own account, the answer; only its
death can come before.  Nothing in the front-end is waiting for anything else, since the thread has
one job and that is to wait for this child.
-/

/-- The command is in a live child's hands. -/
def Busy (f : Flight κ) (k : ChildId) (tag : Tag) (command : Command) : Prop :=
  (f.children k).alive = true ∧ (f.children k).phase = .busy tag command

/-- A child that is busy with a command has it in hand. -/
theorem Busy.hand (h : f.Busy k tag command) : f.HasInHand k tag command := ⟨h.1, Or.inr h.2⟩

theorem Busy.congr (h : f.Busy k tag command) (hchildren : f'.children k = f.children k) :
    f'.Busy k tag command := by
  unfold Busy
  rw [hchildren]
  exact h

/-- A flight knows a child that is at something. -/
theorem Busy.spawned (h : f.Busy k tag command) (hi : Inv prog f) : k < f.spawns := by
  by_contra hle
  have halive := h.1
  rw [hi.accounted.spawned k (Nat.le_of_not_lt hle)] at halive
  exact absurd halive (by simp [Child.unborn])

/-- What a child is at was written to it, and the thread waits for the answer it has not sent. -/
theorem Busy.awaited (h : f.Busy k tag command) (hi : Inv prog f) (ha : f.Attended) :
    ∃ o, f.executor = [.awaitReply o k false] ∧ f.written tag = some (o, k, command) ∧
      (f.children k).outbox = [] := by
  obtain ⟨o, hex, hwritten, -, hout⟩ := ha.awaiting hi.serial h.hand.reading
  exact ⟨o, hex, hwritten, hout⟩

/-- A child that takes a command is at it. -/
theorem receive_busy (h : f.receive k = some f') : ∃ tag command rest,
    (f.children k).inbox = (tag, command) :: rest ∧ (f.children k).alive = true ∧
      f'.Busy k tag command ∧ f'.written = f.written := by
  simp only [receive] at h
  split at h
  · rename_i tag command rest hphase hinbox
    split at h
    · rename_i halive
      obtain rfl := Option.some.inj h
      exact ⟨tag, command, rest, hinbox, halive, by simp [Busy, Flight.setChild, halive], rfl⟩
    · exact absurd h (by simp)
  · exact absurd h (by simp)

/-- The thread has nothing to do while a child is at a command. -/
theorem Busy.not_runExecutor {fails : Option String} (h : f.Busy k tag command) (hi : Inv prog f)
    (ha : f.Attended) : f.runExecutor fails = none := by
  obtain ⟨o, hex, -, hout⟩ := h.awaited hi ha
  cases fails with
  | none => simp [runExecutor, hex, hout]
  | some reason => simp [runExecutor, hex, h.1]

/-- Of its own steps a child that is at a command can take only two. -/
theorem next_child_busy {a : FlightAction σ} (h : f.Busy k tag command) (hchild : a.child? = some k)
    (hstep : f.next cfg prog a = some (f', e)) : (∃ world, a = .answer k world) ∨
      a = .die k ∧ (f'.children k).outbox = (f.children k).outbox := by
  cases a with
  | answer _ world =>
      obtain rfl := Option.some.inj hchild
      exact Or.inl ⟨world, rfl⟩
  | die _ =>
      obtain rfl := Option.some.inj hchild
      simp only [Flight.next, quietly, die, if_pos h.1, Option.map_some, Option.some.injEq,
        Prod.mk.injEq] at hstep
      obtain ⟨rfl, -⟩ := hstep
      exact Or.inr ⟨rfl, by simp [Flight.setChild]⟩
  | boot _ b =>
      obtain rfl := Option.some.inj hchild
      simp [Flight.next, quietly, boot, h.2] at hstep
  | receive _ =>
      obtain rfl := Option.some.inj hchild
      simp [Flight.next, quietly, receive, h.2] at hstep
  | finishDeferred _ =>
      obtain rfl := Option.some.inj hchild
      simp [Flight.next, quietly, finishDeferred, h.2] at hstep
  | _ => exact absurd hchild (by simp [FlightAction.child?])

/-- **A child stays at its command** until it answers or dies. -/
theorem next_busy {a : FlightAction σ} (h : f.Busy k tag command) (hi : Inv prog f)
    (ha : f.Attended) (hanswer : ∀ world, a ≠ .answer k world) (hvictim : f.victim a ≠ some k)
    (hstep : f.next cfg prog a = some (f', e)) :
    f'.Busy k tag command ∧ f'.written = f.written := by
  by_cases hthread : ∃ fails, a = .runExecutor fails
  · obtain ⟨fails, rfl⟩ := hthread
    have hran := (next_runExecutor hstep).1
    rw [h.not_runExecutor hi ha] at hran
    exact absurd hran (by simp)
  · cases hchild : a.child? with
    | none =>
        have honward := next_onward (fun fails heq => hthread ⟨fails, heq⟩) hchild hstep
        exact ⟨h.congr (honward.kept k (h.spawned hi) hvictim), honward.written⟩
    | some j =>
        obtain ⟨-, c', -, rfl⟩ := next_child hchild hstep
        by_cases hjk : k = j
        · subst hjk
          rcases next_child_busy h hchild hstep with ⟨world, rfl⟩ | ⟨rfl, -⟩
          · exact absurd rfl (hanswer world)
          · exact absurd rfl hvictim
        · exact ⟨h.congr (by simp [Flight.setChild, hjk]), rfl⟩

/-! ### An answer on its way

From the child's answer to the caller's next step the answer is in one of two places.  Going
backwards over a step, an answer that is on its way was so before, or the step is the child's.
This is what ties a file that was written before the answer to the job that is counted as done
after it.
-/

/-- The answer `s` is on its way to call `c`: in the pipe of the child the thread waits for, or
with the caller. -/
inductive Reported (f : Flight κ) (c : CallId) (s : Sent) : Prop
  | sent (k : ChildId) (tag : Tag) (command : Command) (owner : f.Exchanging c command k tag none)
      (executor : f.executor = [.awaitReply (.call c) k false])
      (outbox : s ∈ (f.children k).outbox)
  | returned (k : ChildId) (tag : Tag) (command : Command)
      (owner : f.Exchanging c command k tag (some (.reply s)))

/-- Whoever is exchanging has called. -/
theorem Exchanging.mem_callers {c : CallId} {out : Option Outcome}
    (h : f.Exchanging c command k tag out) : (c, command) ∈ f.callers := by
  rw [callers_of_owner h]
  simp [Holder.caller]

/-- Whoever gets an answer waits. -/
theorem Reported.caller {c : CallId} {s : Sent} (h : f.Reported c s) :
    ∃ command, (c, command) ∈ f.callers := by
  cases h with
  | sent k tag command owner => exact ⟨command, owner.mem_callers⟩
  | returned k tag command owner => exact ⟨command, owner.mem_callers⟩

/-- Nothing is on its way while a child is at a command. -/
theorem Busy.not_reported {c : CallId} {s : Sent} (h : f.Busy k tag command) (hi : Inv prog f)
    (ha : f.Attended) : ¬ f.Reported c s := by
  obtain ⟨o, hex, -, hout⟩ := h.awaited hi ha
  intro hreported
  cases hreported with
  | returned k' tag' command' owner =>
      obtain ⟨-, -, -, -, hidle, -⟩ := hi.serial.served owner
      exact absurd (hex.symm.trans hidle) (by simp)
  | sent k' tag' command' owner executor outbox =>
      obtain ⟨-, rfl, -⟩ := Job.awaitReply.inj (List.cons.inj (hex.symm.trans executor)).1
      rw [hout] at outbox
      exact absurd outbox List.not_mem_nil

/-- The thread tells a caller what it came back with. -/
theorem deliver_exchanging {o : Client} {out : Outcome} {c : CallId} {x : Option Outcome}
    (h : (deliver o out f).Exchanging c command k tag x) :
    f.Exchanging c command k tag x ∨
      o = .call c ∧ x = some out ∧ f.Exchanging c command k tag none := by
  unfold Exchanging at h ⊢
  unfold deliver at h
  split at h
  · split at h <;> exact Or.inl h
  · split at h
    · rename_i c₀ command' k' tag' howner
      split at h
      · rename_i hc
        obtain ⟨rfl, rfl, hstage⟩ := Holder.call.inj (Option.some.inj h)
        obtain ⟨rfl, rfl, rfl⟩ := Stage.exchanging.inj hstage
        refine Or.inr ⟨rfl, rfl, ?_⟩
        rw [← hc]
        exact howner
      · exact Or.inl h
    · exact Or.inl h

/-- While a caller has its answer the thread is idle. -/
theorem Inv.executor_returned {c : CallId} {out : Outcome} (hi : Inv prog f)
    (h : f.Exchanging c command k tag (some out)) : f.executor = [] := by
  obtain ⟨-, -, -, -, hx⟩ := hi.serial.served h
  cases out with
  | reply s => exact hx.1
  | lost reason => exact hx

/-- The child that a caller's command went to is the flight's. -/
theorem Inv.exchanging_lt {c : CallId} {out : Option Outcome} (hi : Inv prog f)
    (h : f.Exchanging c command k tag out) : k < f.spawns := by
  obtain ⟨-, -, hchild, -⟩ := hi.serial.served h
  exact hi.accounted.known k hchild ▸ Nat.lt_succ_self k

/-- What the event loop does brings no answer. -/
theorem Onward.reported {dead : Option ChildId} {c : CallId} {s : Sent} (h : Onward dead f f')
    (hi : Inv prog f) (hi' : Inv prog f') (hreported : f'.Reported c s) : f.Reported c s := by
  cases hreported with
  | returned k tag command owner =>
      rcases h.owner c command k tag _ owner with hbefore | ⟨o, j, t, x, hmem⟩
      · exact .returned k tag command hbefore
      · have hex := hi'.executor_returned owner
        rw [hex] at hmem
        exact absurd hmem List.not_mem_nil
  | sent k tag command owner executor outbox =>
      rcases h.owner c command k tag _ owner with hbefore | ⟨o, j, t, x, hmem⟩
      · refine .sent k tag command hbefore ?_ ?_
        · have hle := h.executor
          rw [executor] at hle
          obtain ⟨-, -, -, -, hx⟩ := hi.serial.served hbefore
          rcases hx with ⟨hex, -⟩ | ⟨hex, -⟩
          · rw [hex] at hle
            obtain ⟨more, hmore⟩ := hle
            exact absurd (List.cons.inj hmore).1 (by simp)
          · exact hex
        · rw [← h.outbox k (hi.exchanging_lt hbefore)]
          exact outbox
      · rw [executor] at hmem
        exact absurd hmem (by simp)

/-- The thread keeps its work while an answer is handed over, -/
theorem deliver_executor {o : Client} {out : Outcome} :
    (deliver o out f).executor = f.executor := by
  unfold deliver
  split
  · split <;> rfl
  · split
    · split <;> rfl
    · rfl

/-- and while a reap is; the lock is not touched by that. -/
theorem deliverReaped_talk {w : BringUpTask} : (deliverReaped w f).executor = f.executor ∧
    (deliverReaped w f).lock = f.lock := by
  unfold deliverReaped
  split <;> exact ⟨rfl, rfl⟩

/-- Where the thread is idle and the lock is as it was, what is on its way is with its caller. -/
theorem Reported.relocked {c : CallId} {s : Sent} (h : f'.Reported c s) (hex : ∀ o k,
    f'.executor ≠ [.awaitReply o k false]) (hlock : f'.lock = f.lock) : f.Reported c s := by
  cases h with
  | sent k tag command owner executor outbox => exact absurd executor (hex _ _)
  | returned k tag command owner =>
      refine .returned k tag command ?_
      unfold Exchanging at owner ⊢
      rw [← hlock]
      exact owner

/-- What the thread brings to a caller is on its way to it, and to nobody else. -/
theorem Reported.delivered {o : Client} {out : Outcome} {c : CallId} {s : Sent}
    (h : (deliver o out f').Reported c s) (hex : f'.executor = []) (hlock : f'.lock = f.lock) :
    f.Reported c s ∨ o = .call c ∧ out = .reply s ∧
      ∃ command k tag, f.Exchanging c command k tag none := by
  have hback : ∀ {command k tag x}, f'.Exchanging c command k tag x →
      f.Exchanging c command k tag x := by
    intro command k tag x hx
    unfold Exchanging at hx ⊢
    rw [← hlock]
    exact hx
  cases h with
  | sent k tag command owner executor outbox =>
      rw [deliver_executor, hex] at executor
      exact absurd executor (by simp)
  | returned k tag command owner =>
      rcases deliver_exchanging owner with hbefore | ⟨ho, hout, hbefore⟩
      · exact Or.inl (.returned k tag command (hback hbefore))
      · exact Or.inr ⟨ho, (Option.some.inj hout).symm, command, k, tag, hback hbefore⟩

/-- The thread brings no answer but the one the child sent. -/
theorem runExecutor_reported {fails : Option String} {c : CallId} {s : Sent} (hi : Inv prog f)
    (h : f.runExecutor fails = some f') (hreported : f'.Reported c s) : f.Reported c s := by
  have hrest : ∀ {j rest}, f.executor = j :: rest → rest = [] := by
    intro j rest hjob
    have hlen := hi.serial.executor_le
    rw [hjob, List.length_cons] at hlen
    exact List.eq_nil_of_length_eq_zero (by omega)
  cases runExecutor_executed h with
  | reap w rest hjob => exact hreported.relocked (fun o k => by simp) rfl
  | reapedNone w rest hjob =>
      obtain rfl := hrest hjob
      refine hreported.relocked (fun o k => ?_) deliverReaped_talk.2
      rw [deliverReaped_talk.1]
      simp
  | reaped w k rest hjob =>
      obtain rfl := hrest hjob
      refine hreported.relocked (fun o k => ?_) deliverReaped_talk.2
      rw [deliverReaped_talk.1]
      simp
  | unwritten o k tag command rest reason hjob hdead =>
      rcases hreported.delivered (f := f) (hrest hjob) rfl with hbefore | ⟨-, hout, -⟩
      · exact hbefore
      · exact absurd hout (by simp)
  | lost o k timed rest reason hjob hmay =>
      rcases hreported.delivered (f := f) (hrest hjob) rfl with hbefore | ⟨-, hout, -⟩
      · exact hbefore
      · exact absurd hout (by simp)
  | replied o k timed rest s' more hjob hout =>
      rcases hreported.delivered (f := f) (hrest hjob) rfl with
        hbefore | ⟨rfl, heq, command, k', tag, howner⟩
      · exact hbefore
      · -- The thread had waited for this caller, and on the child it was to wait for.
        obtain rfl := Outcome.reply.inj heq
        obtain ⟨-, -, -, -, hx⟩ := hi.serial.served howner
        rw [hrest hjob] at hjob
        rcases hx with ⟨hex, -⟩ | ⟨hex, -⟩
        · exact absurd (List.cons.inj (hjob.symm.trans hex)).1 (by simp)
        · obtain ⟨-, rfl, rfl⟩ := Job.awaitReply.inj (List.cons.inj (hjob.symm.trans hex)).1
          refine .sent k tag command howner hjob ?_
          rw [hout]
          exact List.mem_cons_self ..
  | written o k tag command rest hjob =>
      cases hreported with
      | returned k' tag' command' owner => exact .returned k' tag' command' owner
      | sent k' tag' command' owner executor outbox =>
          -- A command was only just written, and to a child with nothing to send.
          have hquiet : Quiet (f.children k') := by
            obtain ⟨-, -, -, -, hx⟩ := hi.serial.served (f := f) owner
            rcases hx with ⟨-, hquiet⟩ | ⟨hex, -⟩
            · exact hquiet
            · exact absurd (List.cons.inj (hjob.symm.trans hex)).1 (by simp)
          have hsame : ∀ j, ((f.setChild k { f.children k with
              inbox := (f.children k).inbox ++ [(tag, command)] }).children j).outbox =
                (f.children j).outbox := by
            intro j
            by_cases hjk : j = k
            · subst hjk
              simp [Flight.setChild]
            · simp [Flight.setChild, hjk]
          have hmem : s ∈ (f.children k').outbox := by
            rw [← hsame k']
            exact outbox
          rw [hquiet.outbox] at hmem
          exact absurd hmem List.not_mem_nil

/-- A step that a child answers with. -/
theorem next_answer {world : σ} (h : f.next cfg prog (.answer k world) = some (f', e)) :
    ∃ tag command, f.Busy k tag command ∧ (f'.children k).outbox = (f.children k).outbox ++
      [⟨(prog.run world command (f.children k).mem).1, k, some (tag, command)⟩] := by
  obtain ⟨g, hg, heq⟩ := Option.map_eq_some_iff.mp h
  obtain ⟨rfl, -⟩ := Prod.mk.inj heq
  simp only [answer] at hg
  split at hg
  · rename_i tag command hphase
    split at hg
    · rename_i halive
      obtain rfl := Option.some.inj hg
      exact ⟨tag, command, ⟨halive, hphase⟩, by simp [Flight.setChild]⟩
    · exact absurd hg (by simp)
  · exact absurd hg (by simp)

/-- **Where an answer comes from.**  What is on its way to a caller after a step was so before,
or is what the child has just made of the caller's command. -/
theorem next_reported {a : FlightAction σ} {c : CallId} {s : Sent} (hi : Inv prog f)
    (hi' : Inv prog f') (hstep : f.next cfg prog a = some (f', e)) (h : f'.Reported c s) :
    f.Reported c s ∨ ∃ k world tag command, a = .answer k world ∧ f.Busy k tag command ∧
      f.Exchanging c command k tag none ∧ f.written tag = some (.call c, k, command) ∧
        s.msg = (prog.run world command (f.children k).mem).1 := by
  by_cases hthread : ∃ fails, a = .runExecutor fails
  · obtain ⟨fails, rfl⟩ := hthread
    exact Or.inl (runExecutor_reported hi (next_runExecutor hstep).1 h)
  · cases hchild : a.child? with
    | none =>
        have honward := next_onward (fun fails heq => hthread ⟨fails, heq⟩) hchild hstep
        exact Or.inl (honward.reported hi hi' h)
    | some j =>
        obtain ⟨-, c', hs, rfl⟩ := next_child hchild hstep
        cases h with
        | returned k tag command owner => exact Or.inl (.returned k tag command owner)
        | sent k tag command owner executor outbox =>
            by_cases hkj : k = j
            · subst hkj
              obtain ⟨-, -, -, -, hx⟩ := hi.serial.served (f := f) owner
              rcases hx with ⟨hex, -⟩ | ⟨-, hwritten, howes⟩
              · exact absurd (List.cons.inj (executor.symm.trans hex)).1 (by simp)
              by_cases hbusy : f.Busy k tag command
              · rcases next_child_busy hbusy hchild hstep with ⟨world, rfl⟩ | ⟨-, hout⟩
                · obtain ⟨tag', command', hbusy', houtbox⟩ := next_answer hstep
                  obtain ⟨rfl, rfl⟩ := Phase.busy.inj (hbusy.2.symm.trans hbusy'.2)
                  rw [houtbox] at outbox
                  rcases List.mem_append.mp outbox with hold | hnew
                  · exact Or.inl (.sent k tag command owner executor hold)
                  · refine Or.inr ⟨k, world, tag, command, rfl, hbusy, owner, hwritten, ?_⟩
                    rw [List.mem_singleton.mp hnew]
                · exact Or.inl (.sent k tag command owner executor (hout ▸ outbox))
              · -- Whoever is at nothing sends nothing.
                have hsettled : (f.children k).phase.settled = true := by
                  cases howes with
                  | unread _ _ hsettled | answered _ _ _ hsettled _ => exact hsettled
                  | working _ _ hphase => exact absurd ⟨hs.alive_before, hphase⟩ hbusy
                have hout : c'.outbox = (f.children k).outbox := by
                  cases hs with
                  | hello _ hphase | fatal _ _ hphase | answer _ _ _ _ hphase =>
                      rw [hphase] at hsettled
                      exact absurd hsettled (by simp [Phase.settled])
                  | receive | finish | die => rfl
                refine Or.inl (.sent k tag command owner executor ?_)
                rw [← hout]
                simpa [Flight.setChild] using outbox
            · exact Or.inl (.sent k tag command owner executor (by
                simpa [Flight.setChild, hkj] using outbox))

end Flight

end DonutServer
