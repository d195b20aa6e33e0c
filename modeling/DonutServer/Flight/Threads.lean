/-
The child and the reader thread keep the invariant.

A child's step touches nothing but its own process, so what has to be checked is
that each thing the invariant says of a pipe survives it: an empty pipe stays empty,
an answer that is owed is still owed or has been given, and given once.  The
thread's steps are the other end: it takes a child down, writes a command, or comes
back with the first message in the pipe.
-/
import DonutServer.Flight.Serial

namespace DonutServer

open Function

variable {κ σ : Type} {prog : ChildProgram κ σ}

/-! ### A step of a child

A child takes one step at a time, and no step of it depends on what other children or the front-end
do.  So `ChildStep` says of a single child what became of it, and each property of a pipe is
carried over one such step by itself, before the flight comes into it.
-/

/-- What one step of child `k` makes of it. -/
inductive ChildStep (prog : ChildProgram κ σ) (k : ChildId) (c : Child κ) : Child κ → Prop
  | hello (alive : c.alive = true) (phase : c.phase = .booting) :
      ChildStep prog k c { c with phase := .idle, outbox := c.outbox ++ [⟨.hello, k, none⟩] }
  | fatal (error : String) (alive : c.alive = true) (phase : c.phase = .booting) :
      ChildStep prog k c
        { c with phase := .exiting, outbox := c.outbox ++ [⟨.fatal error, k, none⟩] }
  | receive (tag : Tag) (command : Command) (rest : List (Tag × Command)) (alive : c.alive = true)
      (phase : c.phase = .idle) (inbox : c.inbox = (tag, command) :: rest) :
      ChildStep prog k c { c with phase := .busy tag command, inbox := rest }
  | answer (tag : Tag) (command : Command) (world : σ) (alive : c.alive = true)
      (phase : c.phase = .busy tag command) :
      ChildStep prog k c
        { c with
          phase := Flight.phaseAfter command
          outbox := c.outbox ++ [⟨(prog.run world command c.mem).1, k, some (tag, command)⟩]
          mem := (prog.run world command c.mem).2 }
  | finish (alive : c.alive = true) (phase : c.phase = .deferred) :
      ChildStep prog k c { c with phase := .idle }
  | die (alive : c.alive = true) : ChildStep prog k c { c with alive := false }

/-- Once a command is answered the child waits for the next, has work put off, or is about to
leave. -/
theorem phaseAfter_settled (command : Command) : (Flight.phaseAfter command).settled = true := by
  cases command <;> rfl

namespace ChildStep

variable {k : ChildId} {c c' : Child κ} {tag : Tag} {command : Command}

/-- Only a living child takes a step. -/
theorem alive_before (h : ChildStep prog k c c') : c.alive = true := by
  cases h <;> assumption

/-- A child does not reap itself. -/
theorem reaped_eq (h : ChildStep prog k c c') : c'.reaped = c.reaped := by
  cases h <;> rfl

/-- A child that owes nothing goes on owing nothing, and its memory stays as it is. -/
theorem quiet (h : ChildStep prog k c c') (hq : Quiet c) : Quiet c' ∧ c'.mem = c.mem := by
  obtain ⟨hin, hout, hs⟩ := hq
  cases h with
  | hello _ phase | fatal _ _ phase | answer _ _ _ _ phase =>
      rw [phase] at hs
      exact absurd hs (by simp [Phase.settled])
  | receive _ _ _ _ _ inbox =>
      rw [hin] at inbox
      exact absurd inbox (by simp)
  | finish _ _ => exact ⟨⟨hin, hout, rfl⟩, rfl⟩
  | die _ => exact ⟨⟨hin, hout, hs⟩, rfl⟩

/-- An answer that is owed stays owed, or is given. -/
theorem owes (h : ChildStep prog k c c') (ho : Owes prog k tag command c) :
    Owes prog k tag command c' := by
  cases ho with
  | unread hin hout hs =>
      cases h with
      | hello _ phase | fatal _ _ phase | answer _ _ _ _ phase =>
          rw [phase] at hs
          exact absurd hs (by simp [Phase.settled])
      | receive tag' command' rest _ _ inbox =>
          rw [hin] at inbox
          obtain ⟨heq, rfl⟩ := List.cons.inj inbox
          obtain ⟨rfl, rfl⟩ := Prod.mk.inj heq
          exact .working rfl hout rfl
      | finish _ _ => exact .unread hin hout rfl
      | die _ => exact .unread hin hout hs
  | working hin hout hphase =>
      cases h with
      | hello _ phase | fatal _ _ phase | receive _ _ _ _ phase | finish _ phase =>
          rw [phase] at hphase
          exact absurd hphase (by simp)
      | answer tag' command' world _ phase =>
          rw [phase] at hphase
          obtain ⟨rfl, rfl⟩ := Phase.busy.inj hphase
          exact .answered _ hin (by rw [hout]; rfl) (phaseAfter_settled _)
            ⟨rfl, rfl, world, c.mem, rfl⟩
      | die _ => exact .working hin hout hphase
  | answered s hin hout hs ha =>
      cases h with
      | hello _ phase | fatal _ _ phase | answer _ _ _ _ phase =>
          rw [phase] at hs
          exact absurd hs (by simp [Phase.settled])
      | receive _ _ _ _ _ inbox =>
          rw [hin] at inbox
          exact absurd inbox (by simp)
      | finish _ _ => exact .answered s hin hout rfl ⟨ha.sender, ha.answers, ha.ran⟩
      | die _ => exact .answered s hin hout hs ⟨ha.sender, ha.answers, ha.ran⟩

/-- The first message stays due, or is sent. -/
theorem helloDue (h : ChildStep prog k c c') (hd : HelloDue prog k c) : HelloDue prog k c' := by
  cases hd with
  | booting hin hout hphase hmem =>
      cases h with
      | hello _ _ => exact .said hin (by rw [hout]; rfl) rfl hmem
      | fatal error _ _ => exact .fatal error hin (by rw [hout]; rfl) rfl
      | receive _ _ _ _ phase | answer _ _ _ _ phase | finish _ phase =>
          rw [phase] at hphase
          exact absurd hphase (by simp)
      | die _ => exact .booting hin hout hphase hmem
  | said hin hout hphase hmem =>
      cases h with
      | hello _ phase | fatal _ _ phase | answer _ _ _ _ phase | finish _ phase =>
          rw [phase] at hphase
          exact absurd hphase (by simp)
      | receive _ _ _ _ _ inbox =>
          rw [hin] at inbox
          exact absurd inbox (by simp)
      | die _ => exact .said hin hout hphase hmem
  | fatal error hin hout hphase =>
      cases h with
      | hello _ phase | fatal _ _ phase | receive _ _ _ _ phase | answer _ _ _ _ phase
        | finish _ phase =>
          rw [phase] at hphase
          exact absurd hphase (by simp)
      | die _ => exact .fatal error hin hout hphase

end ChildStep

/-- An answer is made of what the child remembers, so it is the same while that is. -/
theorem Answers.of_mem {k : ChildId} {tag : Tag} {command : Command} {c c' : Child κ} {s : Sent}
    (h : Answers prog k tag command c s) (hmem : c'.mem = c.mem) :
    Answers prog k tag command c' s := by
  refine ⟨h.sender, h.answers, ?_⟩
  rw [hmem]
  exact h.ran

/-! ### A child's step on the flight

All that a flight has of a child's step is a changed child.  A property of every child is kept if
it is kept for the one that moved, and whatever the invariant says of the front-end's own tasks
stays as it was.
-/

/-- The actions of a child. -/
def FlightAction.child? : FlightAction σ → Option ChildId
  | .boot k _ | .receive k | .answer k _ | .finishDeferred k | .die k => some k
  | _ => none

namespace Flight

variable {f f' : Flight κ} {e : Effects}

/-- An action of a child is a step of that child, and nobody is told of it. -/
theorem next_child {cfg : CoordSettings} {a : FlightAction σ} {k : ChildId}
    (ha : a.child? = some k) (h : f.next cfg prog a = some (f', e)) :
    e = {} ∧ ∃ c', ChildStep prog k (f.children k) c' ∧ f' = f.setChild k c' := by
  cases a <;> simp only [FlightAction.child?, Option.some.injEq, reduceCtorEq] at ha <;> subst ha
    <;> simp only [next, quietly, Option.map_eq_some_iff, Prod.mk.injEq] at h
    <;> obtain ⟨g, hg, rfl, rfl⟩ := h <;> refine ⟨rfl, ?_⟩
  case boot k b =>
    simp only [boot] at hg
    split at hg
    · rename_i hc
      cases b with
      | hello => exact ⟨_, .hello hc.1 hc.2, (Option.some.inj hg).symm⟩
      | fatal error => exact ⟨_, .fatal error hc.1 hc.2, (Option.some.inj hg).symm⟩
    · exact absurd hg (by simp)
  case receive k =>
    simp only [receive] at hg
    split at hg
    · rename_i tag command rest hphase hinbox
      split at hg
      · rename_i halive
        exact ⟨_, .receive tag command rest halive hphase hinbox, (Option.some.inj hg).symm⟩
      · exact absurd hg (by simp)
    · exact absurd hg (by simp)
  case answer k world =>
    simp only [answer] at hg
    split at hg
    · rename_i tag command hphase
      split at hg
      · rename_i halive
        exact ⟨_, .answer tag command world halive hphase, (Option.some.inj hg).symm⟩
      · exact absurd hg (by simp)
    · exact absurd hg (by simp)
  case finishDeferred k =>
    simp only [finishDeferred] at hg
    split at hg
    · rename_i hc
      exact ⟨_, .finish hc.1 hc.2, (Option.some.inj hg).symm⟩
    · exact absurd hg (by simp)
  case die k =>
    simp only [die] at hg
    split at hg
    · rename_i halive
      exact ⟨_, .die halive, (Option.some.inj hg).symm⟩
    · exact absurd hg (by simp)

variable {k : ChildId} {c' : Child κ}

/-- A property of one child that its own steps keep survives a step of any child. -/
theorem setChild_keeps {P : Child κ → Prop} (j : ChildId) (hP : P (f.children j))
    (hstep : j = k → P (f.children j) → P c') : P ((f.setChild k c').children j) := by
  by_cases hj : j = k
  · subst hj
    simpa [setChild] using hstep rfl hP
  · simpa [setChild, hj] using hP

/-- The event loop hears of an exchange's end, and the children of nothing. -/
theorem deliver_children {o : Client} {out : Outcome} : (deliver o out f).children = f.children := by
  unfold deliver
  split
  · split <;> rfl
  · split
    · split <;> rfl
    · rfl

/-- So it is with a reap. -/
theorem deliverReaped_children {w : BringUpTask} : (deliverReaped w f).children = f.children := by
  unfold deliverReaped
  split <;> rfl

/-- An exchange goes on as it was: the answer is still owed, or is in the pipe. -/
theorem Exchange.childStep {o : Client} {j : ChildId} {tag : Tag} {command : Command}
    {out : Option Outcome} (hs : ChildStep prog k (f.children k) c')
    (h : Exchange prog o j tag command f out) :
    Exchange prog o j tag command (f.setChild k c') out := by
  rcases out with _ | s | _
  · rcases h with ⟨hex, hq⟩ | ⟨hex, hw, ho⟩
    · refine Or.inl ⟨hex, setChild_keeps j hq ?_⟩
      intro heq hq
      subst heq
      exact (hs.quiet hq).1
    · refine Or.inr ⟨hex, hw, setChild_keeps j ho ?_⟩
      intro heq ho
      subst heq
      exact hs.owes ho
  · obtain ⟨hex, hw, hq, ha⟩ := h
    have both : Quiet ((f.setChild k c').children j) ∧
        Answers prog j tag command ((f.setChild k c').children j) s := by
      refine setChild_keeps (P := fun c => Quiet c ∧ Answers prog j tag command c s) j ⟨hq, ha⟩ ?_
      intro heq hc
      subst heq
      obtain ⟨hq, ha⟩ := hc
      obtain ⟨hq', hmem⟩ := hs.quiet hq
      exact ⟨hq', ha.of_mem hmem⟩
    exact ⟨hex, hw, both⟩
  · exact h

/-- A bring-up waits for the same thing as before. -/
theorem Doing.childStep {w : BringUpTask} {b : BringUp} (hs : ChildStep prog k (f.children k) c')
    (h : Doing prog w f b) : Doing prog w (f.setChild k c') b := by
  cases b with
  | absent | scheduled | queued | backoff => exact h
  | reaping fatal done => cases done <;> exact h
  | hello j out =>
      rcases out with _ | s | reason
      · obtain ⟨hex, hchild, hin, hd⟩ := h
        refine ⟨hex, hchild, hin, setChild_keeps j hd ?_⟩
        intro heq hd
        subst heq
        exact hs.helloDue hd
      · obtain ⟨hex, hchild, hin, hans, hmsg⟩ := h
        refine ⟨hex, hchild, hin, hans, ?_⟩
        refine hmsg.imp_left ?_
        intro hc
        obtain ⟨hhello, hq, hmem⟩ := hc
        refine ⟨hhello, ?_⟩
        refine setChild_keeps (P := fun c => Quiet c ∧ c.mem = prog.start) j ⟨hq, hmem⟩ ?_
        intro heq hc
        subst heq
        obtain ⟨hq, hmem⟩ := hc
        obtain ⟨hq', hmem'⟩ := hs.quiet hq
        exact ⟨hq', hmem'.trans hmem⟩
      · exact h
  | repriming j tag args out =>
      obtain ⟨hchild, hin, hx⟩ := h
      exact ⟨hchild, hin, hx.childStep hs⟩

/-- Who talks to whom is not for a child to change. -/
theorem Serial.childStep (hs : ChildStep prog k (f.children k) c') (h : Serial prog f) :
    Serial prog (f.setChild k c') := by
  cases h with
  | idle inactive quiet executor inFlight ready =>
      refine .idle inactive quiet executor inFlight fun hready j hj => ?_
      refine setChild_keeps j (ready hready j hj) ?_
      intro heq hq
      subst heq
      exact (hs.quiet hq).1
  | bringUp w active other quiet doing => exact .bringUp w active other quiet (doing.childStep hs)
  | caller c command j tag out owner inactive ready child inFlight exchange =>
      exact .caller c command j tag out owner inactive ready child inFlight (exchange.childStep hs)

/-- No child comes up by itself, and none is taken down by another. -/
theorem Accounted.childStep (hs : ChildStep prog k (f.children k) c') (h : Accounted prog f) :
    Accounted prog (f.setChild k c') := by
  refine ⟨fun j hj => ?_, h.known, h.taken, fun j hj => ?_, fun j => ?_⟩
  · refine setChild_keeps (P := fun c => c = .unborn prog) j (h.spawned j hj) ?_
    intro heq hborn
    subst heq
    have halive := hs.alive_before
    rw [hborn] at halive
    exact absurd halive (by simp [Child.unborn])
  · refine (h.reaped j hj).imp_left fun hr => ?_
    refine setChild_keeps (P := fun c => c.reaped = true) j hr ?_
    intro heq hr
    subst heq
    rw [hs.reaped_eq]
    exact hr
  · refine setChild_keeps (P := fun c => c.reaped = true → c.alive = false) j (h.dead j) ?_
    intro heq hdead hr
    subst heq
    rw [hs.reaped_eq] at hr
    have halive := hs.alive_before
    rw [hdead hr] at halive
    exact absurd halive (by simp)

/-- **A child's step keeps the invariant.** -/
theorem Inv.childStep (hs : ChildStep prog k (f.children k) c') (h : Inv prog f) :
    Inv prog (f.setChild k c') :=
  ⟨h.held.congr rfl, h.serial.childStep hs, h.accounted.childStep hs⟩

/-! ### A step of the reader thread

The thread is in one of three businesses, and `Serial` says which: an exchange, a reap, or the wait
for a first message.  Each has its own lemma on how far it got after the step, and the step as a
whole is put together from them.  The thread starts nothing on its own account, so the cases do not
mix.
-/

/-- What is written to the pipe of the current child, or read from it, takes down nobody. -/
theorem Accounted.touch {k : ChildId} {c : Child κ} (h : Accounted prog f)
    (hk : f.child = some k) (halive : c.alive = (f.children k).alive)
    (hreaped : c.reaped = (f.children k).reaped) : Accounted prog (f.setChild k c) := by
  have hlt : k < f.spawns := h.known k hk ▸ Nat.lt_succ_self k
  refine ⟨fun j hj => ?_, h.known, h.taken, fun j hj => ?_, fun j => ?_⟩
  · refine setChild_keeps (P := fun c => c = .unborn prog) j (h.spawned j hj) ?_
    intro heq _
    subst heq
    exact absurd hlt (Nat.not_lt_of_le hj)
  · refine (h.reaped j hj).imp_left fun hr => ?_
    refine setChild_keeps (P := fun c => c.reaped = true) j hr ?_
    intro heq hr
    subst heq
    rwa [hreaped]
  · refine setChild_keeps (P := fun c => c.reaped = true → c.alive = false) j (h.dead j) ?_
    intro heq hdead hr
    subst heq
    rw [halive]
    exact hdead (hreaped ▸ hr)

/-- While the thread is not reaping, what it works on does not count a child as gone. -/
theorem Accounted.executor (jobs : List Job) (h : Accounted prog f)
    (hold : ∀ w k, f.executor ≠ [.reaping w (some k)])
    (hnew : ∀ w k, jobs ≠ [.reaping w (some k)]) : Accounted prog { f with executor := jobs } := by
  refine ⟨h.spawned, h.known, fun w k hw => absurd hw (hnew w k), fun j hj => ?_, h.dead⟩
  rcases h.reaped j hj with hr | hc | ⟨w, hw⟩
  · exact Or.inl hr
  · exact Or.inr (Or.inl hc)
  · exact absurd hw (hold w j)

/-- Reading or writing the pipe of the current child counts nobody as gone. -/
theorem Accounted.talk {k : ChildId} {c : Child κ} (jobs : List Job) (h : Accounted prog f)
    (hk : f.child = some k) (halive : c.alive = (f.children k).alive)
    (hreaped : c.reaped = (f.children k).reaped)
    (hold : ∀ w k, f.executor ≠ [.reaping w (some k)])
    (hnew : ∀ w k, jobs ≠ [.reaping w (some k)]) :
    Accounted prog { f.setChild k c with executor := jobs } :=
  (h.touch hk halive hreaped).executor jobs hold hnew

/-- The thread's next step in an exchange: it finds the child gone, writes the command, or
comes back with the answer. -/
theorem Exchange.executed {o : Client} {k : ChildId} {tag : Tag} {command : Command}
    {fails : Option String} (hx : Exchange prog o k tag command f none)
    (h : f.runExecutor fails = some f') :
    (∃ reason, f' = deliver o (.lost reason) { f with executor := [] }) ∨
    (Quiet (f.children k) ∧ f' =
      { f.setChild k { f.children k with inbox := (f.children k).inbox ++ [(tag, command)] } with
        executor := [.awaitReply o k false]
        written := update f.written tag (some (o, k, command)) }) ∨
    ∃ s, f.written tag = some (o, k, command) ∧ (f.children k).inbox = [] ∧
      (f.children k).outbox = [s] ∧ (f.children k).phase.settled = true ∧
      Answers prog k tag command (f.children k) s ∧ f' = deliver o (.reply s)
        { f.setChild k { f.children k with outbox := [] } with executor := [] } := by
  have hm := runExecutor_executed h
  rcases hx with ⟨hex, hq⟩ | ⟨hex, hw, ho⟩
  · cases hm with
    | unwritten _ _ _ _ rest reason hjob _ =>
        obtain ⟨heq, rfl⟩ := List.cons.inj (hex.symm.trans hjob)
        obtain ⟨rfl, -⟩ := Job.exchange.inj heq
        exact Or.inl ⟨reason, rfl⟩
    | written _ _ _ _ rest hjob =>
        obtain ⟨heq, rfl⟩ := List.cons.inj (hex.symm.trans hjob)
        obtain ⟨rfl, rfl, rfl, rfl⟩ := Job.exchange.inj heq
        exact Or.inr (Or.inl ⟨hq, rfl⟩)
    | reap _ _ hjob | reapedNone _ _ hjob | reaped _ _ _ hjob | lost _ _ _ _ _ hjob
    | replied _ _ _ _ _ _ hjob =>
        exact absurd (hex.symm.trans hjob) (by simp)
  · cases hm with
    | lost _ _ _ rest reason hjob _ =>
        obtain ⟨heq, rfl⟩ := List.cons.inj (hex.symm.trans hjob)
        obtain ⟨rfl, -⟩ := Job.awaitReply.inj heq
        exact Or.inl ⟨reason, rfl⟩
    | replied _ _ _ rest s more hjob hout =>
        obtain ⟨heq, rfl⟩ := List.cons.inj (hex.symm.trans hjob)
        obtain ⟨rfl, rfl, -⟩ := Job.awaitReply.inj heq
        cases ho with
        | unread _ hnone _ | working _ hnone _ => exact absurd (hnone.symm.trans hout) (by simp)
        | answered s' hin hout' hs ha =>
            obtain ⟨rfl, rfl⟩ := List.cons.inj (hout'.symm.trans hout)
            exact Or.inr (Or.inr ⟨s', hw, hin, hout', hs, ha, rfl⟩)
    | reap _ _ hjob | reapedNone _ _ hjob | reaped _ _ _ hjob | unwritten _ _ _ _ _ _ hjob
    | written _ _ _ _ _ hjob =>
        exact absurd (hex.symm.trans hjob) (by simp)

/-- What it leaves of the exchange. -/
theorem runExecutor_exchange {o : Client} {k : ChildId} {tag : Tag} {command : Command}
    {fails : Option String} (hx : Exchange prog o k tag command f none)
    (h : f.runExecutor fails = some f') :
    ∃ c, c.alive = (f.children k).alive ∧ c.reaped = (f.children k).reaped ∧
      ((∃ written, f' = { f.setChild k c with executor := [.awaitReply o k false], written } ∧
          Exchange prog o k tag command f' none) ∨
        ∃ out, f' = deliver o out { f.setChild k c with executor := [] } ∧
          Exchange prog o k tag command { f.setChild k c with executor := [] } (some out)) := by
  rcases hx.executed h with ⟨reason, rfl⟩ | ⟨hq, rfl⟩ | ⟨s, hw, hin, _, hs, ha, rfl⟩
  · have hself : f.setChild k (f.children k) = f := by
      unfold setChild
      rw [update_eq_self]
    refine ⟨f.children k, rfl, rfl, Or.inr ⟨.lost reason, ?_, rfl⟩⟩
    rw [hself]
  · refine ⟨{ f.children k with inbox := (f.children k).inbox ++ [(tag, command)] }, rfl, rfl,
      Or.inl ⟨update f.written tag (some (o, k, command)), rfl,
        Or.inr ⟨rfl, update_self .., ?_⟩⟩⟩
    simp only [setChild, update_self]
    exact .unread (by rw [hq.inbox]; rfl) hq.outbox hq.settled
  · refine ⟨{ f.children k with outbox := [] }, rfl, rfl, Or.inr ⟨.reply s, rfl, rfl, hw, ?_⟩⟩
    simp only [setChild, update_self]
    exact ⟨⟨hin, rfl, hs⟩, ⟨ha.sender, ha.answers, ha.ran⟩⟩

/-- A result delivered to a task on the thread leaves every task where it was. -/
theorem Held.setTask {w : BringUpTask} {b : BringUp} (h : Held f)
    (hold : (f.tasks w).active = true) (hnew : b.active = true) : Held (f.setTask w b) := by
  have notQueued : ∀ {x : BringUp}, x.active = true → x ≠ .queued := by
    intro x hx heq
    subst heq
    exact absurd hx (by simp [BringUp.active])
  cases w with
  | startup =>
      refine ⟨h.holds, h.queued, ?_, fun hs => ?_, fun hr => ?_⟩
      · rw [setTask_self]
        exact notQueued hnew
      · rw [setTask_self] at hs
        rw [hs] at hnew
        exact absurd hnew (by simp [BringUp.active])
      · rw [h.ready hr] at hold
        exact absurd hold (by simp [BringUp.active])
  | restart =>
      refine ⟨?_, ?_, h.startup, fun hs => ?_, h.ready⟩
      · have hh := h.holds
        rw [hold] at hh
        rw [setTask_self, hnew]
        exact hh
      · have hq := h.queued
        rw [if_neg (notQueued hold)] at hq
        rw [setTask_self, if_neg (notQueued hnew)]
        exact hq
      · rcases h.order hs with ho | ho <;> rw [ho] at hold <;>
          exact absurd hold (by simp [BringUp.active])

/-- The caller that holds the lock is told of its answer, and holds it as before. -/
theorem Held.exchanged {c : CallId} {command : Command} {k : ChildId} {tag : Tag}
    {out out' : Option Outcome} (h : Held f)
    (howner : f.lock.owner = some (.call c command (.exchanging k tag out))) :
    Held { f with lock := f.lock.hold (.call c command (.exchanging k tag out')) } := by
  refine ⟨?_, h.queued, h.startup, h.order, h.ready⟩
  rw [h.holds, howner]
  simp

/-- A reap begins, taking the child out of `_proc`, or ends, with the child gone. -/
theorem runExecutor_reaping {w : BringUpTask} {fatal : Option String} {fails : Option String}
    (hi : Inv prog f) (hw : f.tasks w = .reaping fatal false)
    (hother : (f.tasks w.other).active = false) (hquiet : f.exchanging = false)
    (hr : Reaping w f) (hin : f.inFlight = 0)
    (h : f.runExecutor fails = some f') : Inv prog f' := by
  have hactive : (f.tasks w).active = true := by rw [hw]; rfl
  rcases hr with hex | ⟨hchild, taken, hex⟩
  · simp only [runExecutor, hex] at h
    obtain rfl := Option.some.inj h
    refine ⟨hi.held.congr rfl, ?_, ?_⟩
    · refine .bringUp w hactive hother hquiet ?_
      show Doing prog w _ (f.tasks w)
      rw [hw]
      exact ⟨Or.inr ⟨rfl, f.child, rfl⟩, hin⟩
    · refine ⟨hi.accounted.spawned, fun k hk => absurd hk (by simp), fun w' k hk => ?_,
        fun k hk => ?_, hi.accounted.dead⟩
      · simp only [List.cons.injEq, Job.reaping.injEq, and_true] at hk
        exact hi.accounted.known k hk.2
      rcases hi.accounted.reaped k hk with hr | hc | ⟨w', hw'⟩
      · exact Or.inl hr
      · exact Or.inr (Or.inr ⟨w, by simp [hc]⟩)
      · exact absurd (hex.symm.trans hw') (by simp)
  · have hdone : ∀ g : Flight κ, Held g → Accounted prog g → g.tasks = f.tasks →
        g.executor = [] → g.child = none → g.inFlight = 0 → g.exchanging = false →
        Inv prog (deliverReaped w g) := by
      intro g hheld ha htasks hex hchild hin hquiet
      have hd : deliverReaped w g = setTask w (.reaping fatal true) g := by
        simp only [deliverReaped, htasks, hw]
      rw [hd]
      refine ⟨hheld.setTask (by rw [htasks]; exact hactive) rfl, .bringUp w ?_ ?_ hquiet ?_, ha.congr rfl⟩
      · rw [setTask_self]; rfl
      · rw [setTask_other, htasks]; exact hother
      · rw [setTask_self]; exact ⟨hex, hchild, hin⟩
    simp only [runExecutor, hex] at h
    cases taken with
    | none =>
        obtain rfl := Option.some.inj h
        exact hdone _ (hi.held.congr rfl) (hi.accounted.executor [] (by rw [hex]; simp) (by simp)) rfl rfl
          hchild hin hquiet
    | some k =>
        obtain rfl := Option.some.inj h
        refine hdone _ (hi.held.congr rfl) ?_ rfl rfl hchild hin hquiet
        have hk : k < f.spawns := hi.accounted.taken w k hex ▸ Nat.lt_succ_self k
        refine ⟨fun j hj => ?_, hi.accounted.known, fun w' j hj => absurd hj (by simp),
          fun j hj => ?_, fun j => ?_⟩
        · refine setChild_keeps (P := fun c => c = .unborn prog) j (hi.accounted.spawned j hj) ?_
          intro heq _
          subst heq
          exact absurd hk (Nat.not_lt_of_le hj)
        · by_cases hjk : j = k
          · subst hjk
            exact Or.inl (by simp [setChild])
          · rcases hi.accounted.reaped j hj with hr | hc | ⟨w', hw'⟩
            · exact Or.inl (by simpa [setChild, hjk] using hr)
            · exact Or.inr (Or.inl hc)
            · rw [hex] at hw'
              simp only [List.cons.injEq, Job.reaping.injEq, Option.some.injEq, and_true] at hw'
              exact absurd hw'.2.symm hjk
        · refine setChild_keeps (P := fun c => c.reaped = true → c.alive = false) j
            (hi.accounted.dead j) ?_
          intro heq _ _
          subst heq
          rfl

/-- The thread waits for a first message, and gets one or gives up. -/
theorem runExecutor_hello {w : BringUpTask} {k : ChildId} {fails : Option String}
    (hi : Inv prog f) (hw : f.tasks w = .hello k none)
    (hother : (f.tasks w.other).active = false) (hquiet : f.exchanging = false)
    (hd : Doing prog w f (.hello k none)) (h : f.runExecutor fails = some f') : Inv prog f' := by
  obtain ⟨hex, hchild, hin, hdue⟩ := hd
  have hactive : (f.tasks w).active = true := by rw [hw]; rfl
  -- Whatever comes back, the task is still in `_bring_up`, now with its answer.
  have hdone : ∀ (g : Flight κ) (out : Outcome), Held g → Accounted prog g → g.tasks = f.tasks →
      g.exchanging = false → Doing prog w g (.hello k (some out)) →
      Inv prog (deliver (.task w) out g) := by
    intro g out hheld ha htasks hquiet hdoing
    have hg : deliver (.task w) out g = setTask w (.hello k (some out)) g := by
      simp only [deliver, htasks, hw]
    rw [hg]
    refine ⟨hheld.setTask (by rw [htasks]; exact hactive) rfl, .bringUp w ?_ ?_ hquiet ?_, ha.congr rfl⟩
    · rw [setTask_self]; rfl
    · rw [setTask_other, htasks]; exact hother
    · rw [setTask_self]
      cases out <;> exact hdoing
  have hgone : Accounted prog { f with executor := [] } :=
    hi.accounted.executor [] (by rw [hex]; simp) (by simp)
  simp only [runExecutor, hex] at h
  cases fails with
  | some reason =>
      dsimp only at h
      split at h
      · exact absurd h (by simp)
      · obtain rfl := Option.some.inj h
        exact hdone _ _ (hi.held.congr rfl) hgone rfl hquiet ⟨rfl, hchild, hin⟩
  | none =>
      cases hdue with
      | booting _ hout _ _ =>
          rw [hout] at h
          exact absurd h (by simp)
      | said hinb hout hphase hmem =>
          rw [hout] at h
          obtain rfl := Option.some.inj h
          refine hdone _ _ (hi.held.congr rfl) ?_ rfl hquiet ⟨rfl, hchild, hin, rfl, Or.inl ⟨rfl, ?_⟩⟩
          · exact (hgone.touch hchild (c := { f.children k with outbox := [] }) rfl rfl).congr rfl
          · simp only [setChild, update_self]
            exact ⟨⟨hinb, rfl, by rw [hphase]; rfl⟩, hmem⟩
      | fatal error _ hout _ =>
          rw [hout] at h
          obtain rfl := Option.some.inj h
          refine hdone _ _ (hi.held.congr rfl) ?_ rfl hquiet ⟨rfl, hchild, hin, rfl, Or.inr ⟨error, rfl⟩⟩
          exact (hgone.touch hchild (c := { f.children k with outbox := [] }) rfl rfl).congr rfl

/-- The thread at work on a replayed prepare. -/
theorem runExecutor_repriming {w : BringUpTask} {k : ChildId} {tag : Tag} {args : PrepareCommand}
    {fails : Option String} (hi : Inv prog f) (hw : f.tasks w = .repriming k tag args none)
    (hother : (f.tasks w.other).active = false) (hquiet : f.exchanging = false)
    (hd : Doing prog w f (.repriming k tag args none)) (h : f.runExecutor fails = some f') :
    Inv prog f' := by
  obtain ⟨hchild, hin, hx⟩ := hd
  have hactive : (f.tasks w).active = true := by rw [hw]; rfl
  have hbusy : ∀ w' j, f.executor ≠ [.reaping w' (some j)] := by
    intro w' j
    rcases hx with ⟨hex, _⟩ | ⟨hex, _⟩ <;> rw [hex] <;> simp
  obtain ⟨c, halive, hreaped, ⟨written, rfl, hx'⟩ | ⟨out, rfl, hx'⟩⟩ := runExecutor_exchange hx h
  · refine ⟨hi.held.congr rfl, .bringUp w hactive hother hquiet ?_, ?_⟩
    · show Doing prog w _ (f.tasks w)
      rw [hw]
      exact ⟨hchild, hin, hx'⟩
    · exact (hi.accounted.talk [.awaitReply (.task w) k false] hchild halive hreaped hbusy
        (by simp)).congr rfl
  · have hg : deliver (.task w) out { f.setChild k c with executor := [] } =
        setTask w (.repriming k tag args (some out)) { f.setChild k c with executor := [] } := by
      simp only [deliver, show (f.setChild k c).tasks = f.tasks from rfl, hw]
    have hheld : Held { f.setChild k c with executor := [] } := hi.held.congr rfl
    rw [hg]
    refine ⟨hheld.setTask hactive rfl, .bringUp w ?_ ?_ hquiet ?_, ?_⟩
    · rw [setTask_self]; rfl
    · rw [setTask_other]; exact hother
    · rw [setTask_self]
      exact ⟨hchild, hin, by cases out <;> exact hx'⟩
    · exact (hi.accounted.talk [] hchild halive hreaped hbusy (by simp)).congr rfl

/-- The thread at work on a caller's command. -/
theorem runExecutor_caller {c : CallId} {command : Command} {k : ChildId} {tag : Tag}
    {fails : Option String} (hi : Inv prog f)
    (howner : f.lock.owner = some (.call c command (.exchanging k tag none)))
    (inactive : ∀ w, (f.tasks w).active = false) (ready : f.state = .ready)
    (hchild : f.child = some k) (hin : f.inFlight = 1)
    (hx : Exchange prog (.call c) k tag command f none) (h : f.runExecutor fails = some f') :
    Inv prog f' := by
  have hbusy : ∀ w' j, f.executor ≠ [.reaping w' (some j)] := by
    intro w' j
    rcases hx with ⟨hex, _⟩ | ⟨hex, _⟩ <;> rw [hex] <;> simp
  obtain ⟨ch, halive, hreaped, ⟨written, rfl, hx'⟩ | ⟨out, rfl, hx'⟩⟩ := runExecutor_exchange hx h
  · refine ⟨hi.held.congr rfl, ?_, ?_⟩
    · exact .caller c command k tag none howner inactive ready hchild hin hx'
    · exact (hi.accounted.talk [.awaitReply (.call c) k false] hchild halive hreaped hbusy
        (by simp)).congr rfl
  · have hg : deliver (.call c) out { f.setChild k ch with executor := [] } =
        { f.setChild k ch with
          executor := []
          lock := f.lock.hold (.call c command (.exchanging k tag (some out))) } := by
      simp only [deliver, show (f.setChild k ch).lock = f.lock from rfl, howner, if_pos]
    have hheld : Held { f.setChild k ch with executor := [] } := hi.held.congr rfl
    rw [hg]
    refine ⟨hheld.exchanged howner, ?_, ?_⟩
    · refine .caller c command k tag (some out) rfl inactive ready hchild hin ?_
      cases out <;> exact hx'
    · exact (hi.accounted.talk [] hchild halive hreaped hbusy (by simp)).congr rfl

/-- **The reader thread keeps the invariant.** -/
theorem runExecutor_inv {fails : Option String} (hi : Inv prog f)
    (h : f.runExecutor fails = some f') : Inv prog f' := by
  cases hi.serial with
  | idle _ _ hex _ _ =>
      simp only [runExecutor, hex] at h
      exact absurd h (by simp)
  | bringUp w hactive hother hquiet hd =>
      have hstuck : f.executor = [] → False := by
        intro hex
        simp only [runExecutor, hex] at h
        exact absurd h (by simp)
      rcases hw : f.tasks w with _ | _ | _ | _ | ⟨fatal, done⟩ | ⟨k, out⟩ | ⟨k, tag, args, out⟩ <;>
        rw [hw] at hd
      · exact absurd hd id
      · exact absurd hd id
      · exact absurd hd id
      · exact absurd hd.1 hstuck
      · cases done with
        | false => exact runExecutor_reaping hi hw hother hquiet hd.1 hd.2 h
        | true => exact absurd hd.1 hstuck
      · rcases out with _ | _ | _
        · exact runExecutor_hello hi hw hother hquiet hd h
        · exact absurd hd.1 hstuck
        · exact absurd hd.1 hstuck
      · rcases out with _ | _ | _
        · exact runExecutor_repriming hi hw hother hquiet hd h
        · exact absurd hd.2.2.1 hstuck
        · exact absurd hd.2.2 hstuck
  | caller c command k tag out howner inactive ready hchild hin hx =>
      rcases out with _ | _ | _
      · exact runExecutor_caller hi howner inactive ready hchild hin hx h
      · simp only [runExecutor, hx.1] at h
        exact absurd h (by simp)
      · have hex : f.executor = [] := hx
        simp only [runExecutor, hex] at h
        exact absurd h (by simp)

end Flight

end DonutServer
