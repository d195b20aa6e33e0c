/-
The config that is served, and the one that is live.

The front-end keeps the dump of the last prepare's reply and never asks again, so
between two prepares it describes the child only as long as nothing in the child
changes its task.  `Mirrored` is what a run keeps while that holds: a snapshot of the
present generation is what the current child would dump, or else a caller awaits the
reply that will replace it.
-/
import DonutServer.Flight.Primed

namespace DonutServer

open Function

variable {κ σ : Type} {prog : ChildProgram κ σ} {cfg : CoordSettings}

/-! ### What a run has to keep

The front-end is proved right here against any child program: it is enough that a good reply to a
prepare carries the dump, and that no other command changes what would be dumped.  Which commands
of the real coordinator keep that bargain is left to the next file.

In between a prepare's answer and the step that reads it, the snapshot is behind the child.
`Overdue` names that gap: the answer lies in the pipe, or is with the caller, and the caller is
bound to read it.
-/

/-- What a child with this memory would dump is also what its replies to a prepare say. -/
def ChildProgram.Reports (prog : ChildProgram κ σ) (shown : κ → String) : Prop :=
  ∀ world args mem, (prog.run world (.prepare args) mem).1.ok = true →
    (prog.run world (.prepare args) mem).1.configDump =
      some (shown (prog.run world (.prepare args) mem).2)

/-- The command leaves what the child would dump as it is, or is a prepare that says what
it left. -/
def ChildProgram.Accounts (prog : ChildProgram κ σ) (shown : κ → String) (world : σ)
    (command : Command) (mem : κ) : Prop :=
  shown (prog.run world command mem).2 = shown mem ∨
    (∃ args, command = .prepare args) ∧ (prog.run world command mem).1.ok = true

/-- What a child holds at its start has the property, and every command keeps it. -/
structure ChildProgram.Preserves (prog : ChildProgram κ σ) (P : κ → Prop) : Prop where
  start : P prog.start
  run : ∀ world command mem, P mem → P (prog.run world command mem).2

namespace Flight

variable {f f' : Flight κ} {w : BringUpTask} {shown : κ → String}

/-- `_config_is_stale`. -/
def configIsStale (f : Flight κ) (snap : ConfigSnapshot) : Bool :=
  snap.generation ≠ f.generation || f.primedArgs.isNone

/-- Runs in which restarts are safe and every command accounts for what it does to the
config. -/
def accounted (prog : ChildProgram κ σ) (shown : κ → String) (f : Flight κ) (a : FlightAction σ)
    (f' : Flight κ) : Prop :=
  safeRestarts f a f' ∧ ∀ k world tag command, a = .answer k world →
    (f.children k).phase = .busy tag command →
    prog.Accounts shown world command (f.children k).mem

/-- A caller is about to get the reply of a prepare that succeeded, or lost its child. -/
def Overdue (f : Flight κ) : Prop :=
  ∃ c command k tag out, f.lock.owner = some (.call c command (.exchanging k tag out)) ∧
    match out with
    | none => (∃ args, command = .prepare args) ∧
        ∃ s ∈ (f.children k).outbox, s.msg.ok = true
    | some (.reply s) => (∃ args, command = .prepare args) ∧ s.msg.ok = true
    | some (.lost _) => True

/-- What a run keeps: no snapshot is of a later generation, none of the present one while
a prepare is replayed, and in READY one of the present one is what the child would dump. -/
structure Mirrored (shown : κ → String) (f : Flight κ) : Prop where
  past : ∀ snap, f.configSnapshot = some snap → snap.generation ≤ f.generation
  behind : ∀ w k tag args out, f.tasks w = .repriming k tag args out →
    ∀ snap, f.configSnapshot = some snap → snap.generation < f.generation
  told : f.state = .ready → ∀ snap k, f.configSnapshot = some snap →
    snap.generation = f.generation → f.child = some k →
    shown (f.children k).mem = snap.dump ∨ f.Overdue

/-- An answer that is overdue is one of an exchange, -/
theorem Overdue.exchanging (h : f.Overdue) : f.exchanging = true := by
  obtain ⟨c, command, k, tag, out, howner, _⟩ := h
  exact exchanging_eq_true.mpr ⟨c, command, k, tag, out, howner⟩

/-- so that none is where nobody is exchanging. -/
theorem not_overdue (h : f.exchanging = false) : ¬ f.Overdue := by
  intro hc
  exact absurd (h.symm.trans hc.exchanging) Bool.false_ne_true

/-- What is due to a caller who waits is an answer in the pipe of its child. -/
theorem Overdue.waiting {c : CallId} {command : Command} {k : ChildId} {tag : Tag}
    (h : f.Overdue) (howner : f.lock.owner = some (.call c command (.exchanging k tag none))) :
    (∃ args, command = .prepare args) ∧ ∃ s ∈ (f.children k).outbox, s.msg.ok = true := by
  obtain ⟨c', command', k', tag', out', howner', hwhat⟩ := h
  obtain ⟨rfl, rfl, rfl, rfl, rfl⟩ : c = c' ∧ command = command' ∧ k = k' ∧ tag = tag' ∧
      none = out' := by
    have := howner.symm.trans howner'
    simpa using this
  exact hwhat

/-- What is due stays due while a pipe only fills up. -/
theorem Overdue.setChild {k : ChildId} {c : Child κ} (h : f.Overdue)
    (hout : ∀ s ∈ (f.children k).outbox, s ∈ c.outbox) : (f.setChild k c).Overdue := by
  obtain ⟨c', command, j, tag, out, howner, hwhat⟩ := h
  refine ⟨c', command, j, tag, out, howner, ?_⟩
  rcases out with _ | s | _
  · obtain ⟨hprep, s, hs, hans⟩ := hwhat
    refine ⟨hprep, s, ?_, hans⟩
    show s ∈ (update f.children k c j).outbox
    by_cases hjk : j = k
    · subst hjk
      rw [update_self]
      exact hout s hs
    · rw [update_of_ne hjk]
      exact hs
  · exact hwhat
  · trivial

/-! ### Steps that leave the books alone

Most steps touch neither the snapshot nor the memory of a child, and what was due to a caller stays
due.  They come in a few shapes: the lock is handed on, a task goes to its next await, a book is
written that nobody looks at here, or READY is left, after which nothing is promised.
-/

/-- What is kept where the flight is no more READY than before, and its child and its records are
the same. -/
theorem Mirrored.keep (h : Mirrored shown f)
    (hready : f'.state = .ready → f.state = .ready ∧ f'.child = f.child ∧
      (∀ k, f.child = some k → (f'.children k).mem = (f.children k).mem) ∧
      (f.Overdue → f'.Overdue))
    (hsnap : f'.configSnapshot = f.configSnapshot) (hgen : f'.generation = f.generation)
    (htasks : ∀ w k tag args out, f'.tasks w = .repriming k tag args out →
      ∃ out', f.tasks w = .repriming k tag args out') : Mirrored shown f' := by
  refine ⟨?_, ?_, ?_⟩
  · rw [hsnap, hgen]
    exact h.past
  · intro w k tag args out hw
    obtain ⟨out', hw'⟩ := htasks w k tag args out hw
    rw [hsnap, hgen]
    exact h.behind w k tag args out' hw'
  · intro hr snap k hs hg hk
    obtain ⟨hr', hchild, hmem, hover⟩ := hready hr
    rw [hchild] at hk
    rw [hmem k hk]
    rcases h.told hr' snap k (hsnap ▸ hs) (hgen ▸ hg) hk with heq | hov
    · exact Or.inl heq
    · exact Or.inr (hover hov)

/-- A step that leaves READY, or was not in it. -/
theorem Mirrored.leave (h : Mirrored shown f) (hready : f'.state ≠ .ready)
    (hsnap : f'.configSnapshot = f.configSnapshot) (hgen : f'.generation = f.generation)
    (htasks : ∀ w k tag args out, f'.tasks w = .repriming k tag args out →
      ∃ out', f.tasks w = .repriming k tag args out') : Mirrored shown f' :=
  h.keep (fun hr => absurd hr hready) hsnap hgen htasks

/-- A step that touches none of the fields looked at but the lock, and keeps what is due. -/
theorem Mirrored.agree (h : Mirrored shown f) (hdue : f.Overdue → f'.Overdue)
    (hsame : (f'.state, f'.child, f'.children, f'.configSnapshot, f'.generation, f'.tasks) =
      (f.state, f.child, f.children, f.configSnapshot, f.generation, f.tasks)) :
    Mirrored shown f' := by
  simp only [Prod.mk.injEq] at hsame
  obtain ⟨hstate, hchild, hchildren, hsnap, hgen, htasks⟩ := hsame
  refine h.keep (fun hr => ⟨hstate ▸ hr, hchild, fun k _ => by rw [hchildren], hdue⟩) hsnap hgen ?_
  intro w k tag args out hw
  exact ⟨out, htasks ▸ hw⟩

/-- The lock changes hands with nobody on the thread before it. -/
theorem Mirrored.relock (h : Mirrored shown f) (hquiet : f.exchanging = false)
    (hsame : (f'.state, f'.child, f'.children, f'.configSnapshot, f'.generation, f'.tasks) =
      (f.state, f.child, f.children, f.configSnapshot, f.generation, f.tasks)) :
    Mirrored shown f' :=
  h.agree (fun hov => absurd hov (not_overdue hquiet)) hsame

/-- The lock's holder stays. -/
theorem Mirrored.same (h : Mirrored shown f) (howner : f'.lock.owner = f.lock.owner)
    (hsame : (f'.state, f'.child, f'.children, f'.configSnapshot, f'.generation, f'.tasks) =
      (f.state, f.child, f.children, f.configSnapshot, f.generation, f.tasks)) :
    Mirrored shown f' := by
  refine h.agree ?_ hsame
  have hchildren : f'.children = f.children := (Prod.mk.inj (Prod.mk.inj (Prod.mk.inj hsame).2).2).1
  intro hov
  unfold Overdue at hov ⊢
  rw [howner, hchildren]
  exact hov

/-- A task that is not READY's goes on to an await other than a replay. -/
theorem Mirrored.setTask {b : BringUp} (h : Mirrored shown f) (hready : f.state ≠ .ready)
    (hb : ∀ k tag args out, b ≠ .repriming k tag args out) : Mirrored shown (f.setTask w b) := by
  refine h.leave hready rfl rfl fun w' k tag args out hw' => ?_
  by_cases hww : w' = w
  · subst hww
    rw [setTask_self] at hw'
    exact absurd hw' (hb k tag args out)
  · exact ⟨out, by simpa [Flight.setTask, hww] using hw'⟩

/-- Writing a book that is not looked at, outside READY. -/
theorem Mirrored.write (h : Mirrored shown f) (hready : f'.state ≠ .ready)
    (hsame : (f'.configSnapshot, f'.generation, f'.tasks) =
      (f.configSnapshot, f.generation, f.tasks)) : Mirrored shown f' := by
  simp only [Prod.mk.injEq] at hsame
  obtain ⟨hsnap, hgen, htasks⟩ := hsame
  exact h.leave hready hsnap hgen fun _ _ _ _ out hw => ⟨out, htasks ▸ hw⟩

theorem Mirrored.endBringUp (h : Mirrored shown f) (hready : f.state ≠ .ready) :
    Mirrored shown (endBringUp w f) := by
  cases w with
  | startup => exact h.setTask hready (by simp)
  | restart =>
      have hset : Mirrored shown (f.setTask .restart .absent) := h.setTask hready (by simp)
      exact hset.write hready rfl

theorem Mirrored.bringUpLoop (h : Mirrored shown f) (hready : f.state ≠ .ready) :
    Mirrored shown (bringUpLoop cfg w f) := by
  unfold Flight.bringUpLoop
  split
  · exact h.endBringUp hready
  split
  · refine Mirrored.endBringUp ?_ (by simp [Flight.setReady])
    exact h.write (by simp [Flight.setReady]) rfl
  · dsimp only
    split
    · exact Mirrored.setTask (h.write hready (by rfl)) hready (by simp)
    · exact Mirrored.setTask (h.write hready (by rfl)) hready (by simp)

theorem Mirrored.startRestart (h : Mirrored shown f) : Mirrored shown (startRestart f) := by
  unfold Flight.startRestart
  split
  · exact h
  · have hleft : Mirrored shown { f with state := .restarting, readyEvent := false } :=
      h.write (by simp) rfl
    dsimp only
    split
    · exact hleft.setTask (by simp) (by simp)
    · exact hleft

/-- A child that only stops being alive still holds and owes what it did. -/
theorem Mirrored.setChild {k : ChildId} {c : Child κ} (h : Mirrored shown f)
    (hmem : c.mem = (f.children k).mem) (hout : ∀ s ∈ (f.children k).outbox, s ∈ c.outbox) :
    Mirrored shown (f.setChild k c) := by
  refine h.keep (fun hr => ⟨hr, rfl, fun j _ => ?_, ?_⟩) rfl rfl fun _ _ _ _ out hw => ⟨out, hw⟩
  · by_cases hjk : j = k
    · subst hjk
      show (update f.children j c j).mem = _
      rw [update_self]
      exact hmem
    · show (update f.children k c j).mem = _
      rw [update_of_ne hjk]
  · exact fun hov => hov.setChild hout

theorem Mirrored.killChild (h : Mirrored shown f) : Mirrored shown (killChild f) := by
  unfold Flight.killChild
  split
  · exact h
  · exact h.setChild rfl fun _ hs => hs

theorem Mirrored.exchange {c : CallId} {command : Command} (h : Mirrored shown f)
    (hquiet : f.exchanging = false) : Mirrored shown (f.exchange c command).1 := by
  unfold Flight.exchange
  split
  · exact h.relock hquiet rfl
  · exact h.relock hquiet rfl

theorem Mirrored.underLock {c : CallId} {command : Command} (h : Mirrored shown f)
    (hquiet : f.exchanging = false) : Mirrored shown (f.underLock c command).1 := by
  unfold Flight.underLock
  split
  · exact h.exchange hquiet
  split
  · exact h.relock hquiet rfl
  · exact h.relock hquiet rfl

theorem Mirrored.requestRestart {reason : String} (h : Mirrored shown f) :
    Mirrored shown (f.requestRestart reason).1 := by
  unfold Flight.requestRestart
  split
  · exact Mirrored.startRestart (h.same (by rfl) (by rfl))
  split
  · exact Mirrored.startRestart (h.killChild.same (by rfl) (by rfl))
  · exact h.killChild

/-! ### The reader thread

The thread moves what is due from the pipe to the caller, and changes nothing else that is looked
at.  In READY it serves the caller on the thread or nobody, because there is no bring-up task then.
-/

/-- In READY there is no bring-up task, so the thread serves a caller or nobody. -/
theorem ready_serial {l : Life} (hi : Inv prog f) (hl : f.Shows l) (hready : f.state = .ready) :
    (f.exchanging = false ∧ f.executor = [] ∧ ∀ k, f.child = some k → Quiet (f.children k)) ∨
    ∃ c command k tag out, f.lock.owner = some (.call c command (.exchanging k tag out)) ∧
      f.child = some k ∧ Exchange prog (.call c) k tag command f out := by
  have hnone : ∀ w, (f.tasks w).standing = .none := by
    cases l with
    | ready | degraded => exact hl.2
    | bringingUp w =>
        cases w <;> exact absurd (hl.1.symm.trans hready) (by simp [BringUpTask.state])
    | givingUp w => exact absurd (hl.1.symm.trans hready) (by simp)
  cases hi.serial with
  | idle _ hquiet hex _ hq => exact Or.inl ⟨hquiet, hex, hq hready⟩
  | bringUp w hactive _ _ _ => exact absurd (hnone w) (standing_of_active hactive)
  | caller c command k tag out howner _ _ hchild _ hx =>
      exact Or.inr ⟨c, command, k, tag, out, howner, hchild, hx⟩

/-- A replay that is under way was under way before its answer came, -/
theorem deliver_reprimes {o : Client} {out : Outcome} {k : ChildId} {tag : Tag}
    {args : PrepareCommand} {out' : Option Outcome}
    (h : (deliver o out f).tasks w = .repriming k tag args out') :
    ∃ out'', f.tasks w = .repriming k tag args out'' := by
  unfold deliver at h
  split at h
  · rename_i w'
    split at h
    · by_cases hww : w = w'
      · subst hww
        rw [setTask_self] at h
        exact absurd h (by simp)
      · exact ⟨out', by simpa [Flight.setTask, hww] using h⟩
    · rename_i k' tag' args' hw'
      by_cases hww : w = w'
      · subst hww
        rw [setTask_self] at h
        obtain ⟨rfl, rfl, rfl, _⟩ := BringUp.repriming.inj h
        exact ⟨none, hw'⟩
      · exact ⟨out', by simpa [Flight.setTask, hww] using h⟩
    · exact ⟨out', h⟩
  · split at h
    · split at h <;> exact ⟨out', h⟩
    · exact ⟨out', h⟩

/-- and before a reap was reported. -/
theorem deliverReaped_reprimes {w' : BringUpTask} {k : ChildId} {tag : Tag} {args : PrepareCommand}
    {out : Option Outcome} (h : (deliverReaped w' f).tasks w = .repriming k tag args out) :
    f.tasks w = .repriming k tag args out := by
  unfold deliverReaped at h
  split at h
  · by_cases hww : w = w'
    · subst hww
      rw [setTask_self] at h
      exact absurd h (by simp)
    · simpa [Flight.setTask, hww] using h
  · exact h

theorem runExecutor_reprimes {fails : Option String} {k : ChildId} {tag : Tag}
    {args : PrepareCommand} {out : Option Outcome} (hstep : f.runExecutor fails = some f')
    (h : f'.tasks w = .repriming k tag args out) :
    ∃ out', f.tasks w = .repriming k tag args out' := by
  cases runExecutor_executed hstep with
  | reap w' rest hjob => exact ⟨out, h⟩
  | reapedNone w' rest hjob | reaped w' k' rest hjob =>
      have hold := deliverReaped_reprimes h
      exact ⟨out, hold⟩
  | unwritten o k' tag' command rest reason hjob hdead =>
      have hold := deliver_reprimes h
      exact hold
  | written o k' tag' command rest hjob => exact ⟨out, h⟩
  | lost o k' timed rest reason hjob hmay =>
      have hold := deliver_reprimes h
      exact hold
  | replied o k' timed rest s more hjob hout =>
      have hold := deliver_reprimes h
      exact hold

/-- The thread writes none of the books. -/
theorem runExecutor_books {fails : Option String} (hstep : f.runExecutor fails = some f') :
    f'.configSnapshot = f.configSnapshot ∧ f'.generation = f.generation := by
  have hdeliver : ∀ (o : Client) (out : Outcome) (g : Flight κ),
      (deliver o out g).configSnapshot = g.configSnapshot ∧
        (deliver o out g).generation = g.generation := by
    intro o out g
    unfold deliver
    split
    · split <;> exact ⟨rfl, rfl⟩
    · split
      · split <;> exact ⟨rfl, rfl⟩
      · exact ⟨rfl, rfl⟩
  have hreaped : ∀ (w : BringUpTask) (g : Flight κ),
      (deliverReaped w g).configSnapshot = g.configSnapshot ∧
        (deliverReaped w g).generation = g.generation := by
    intro w g
    unfold deliverReaped
    split <;> exact ⟨rfl, rfl⟩
  cases runExecutor_executed hstep with
  | reap w rest hjob => exact ⟨rfl, rfl⟩
  | reapedNone w rest hjob => exact hreaped _ _
  | reaped w k rest hjob => exact hreaped _ _
  | unwritten o k tag command rest reason hjob hdead => exact hdeliver _ _ _
  | written o k tag command rest hjob => exact ⟨rfl, rfl⟩
  | lost o k timed rest reason hjob hmay => exact hdeliver _ _ _
  | replied o k timed rest s more hjob hout => exact hdeliver _ _ _

/-- Of a caller's exchange, the thread hands the caller what was due to it. -/
theorem runExecutor_overdue {c : CallId} {command : Command} {k : ChildId} {tag : Tag}
    {out : Option Outcome} {fails : Option String}
    (howner : f.lock.owner = some (.call c command (.exchanging k tag out)))
    (hx : Exchange prog (.call c) k tag command f out) (hstep : f.runExecutor fails = some f') :
    f'.child = f.child ∧ (f'.children k).mem = (f.children k).mem ∧ (f.Overdue → f'.Overdue) := by
  have hstuck : f.executor ≠ [] := by
    intro hex
    simp only [runExecutor, hex] at hstep
    exact absurd hstep (by simp)
  rcases out with _ | _ | _
  · have hdeliver : ∀ (o : Outcome) (g : Flight κ), g.lock = f.lock →
        deliver (.call c) o g =
          { g with lock := f.lock.hold (.call c command (.exchanging k tag (some o))) } := by
      intro o g hg
      simp only [deliver, hg, howner, if_pos]
    rcases hx.executed hstep with ⟨reason, rfl⟩ | ⟨hq, rfl⟩ | ⟨s, _, _, hout, _, _, rfl⟩
    · rw [hdeliver _ { f with executor := [] } rfl]
      exact ⟨rfl, rfl, fun _ => ⟨c, command, k, tag, _, rfl, trivial⟩⟩
    · refine ⟨rfl, ?_, fun hov => ?_⟩
      · simp only [setChild, update_self]
      · obtain ⟨_, s, hs, _⟩ := hov.waiting howner
        rw [hq.outbox] at hs
        exact absurd hs List.not_mem_nil
    · rw [hdeliver _ { f.setChild k { f.children k with outbox := [] } with executor := [] } rfl]
      refine ⟨rfl, ?_, fun hov => ?_⟩
      · simp only [setChild, update_self]
      · obtain ⟨hprep, s', hs', hok⟩ := hov.waiting howner
        rw [hout, List.mem_singleton] at hs'
        subst hs'
        exact ⟨c, command, k, tag, _, rfl, hprep, hok⟩
  · exact absurd hx.1 hstuck
  · exact absurd hx hstuck

/-- **The thread** reads an answer, and none is acknowledged by that. -/
theorem Mirrored.runExecutor {fails : Option String} {l : Life} (h : Mirrored shown f)
    (hi : Inv prog f) (hl : f.Shows l) (hstep : f.runExecutor fails = some f') :
    Mirrored shown f' := by
  obtain ⟨hsnap, hgen⟩ := runExecutor_books hstep
  have hstate : f'.state = f.state := (runExecutor_steady hstep).state
  have htasks : ∀ w k tag args out, f'.tasks w = .repriming k tag args out →
      ∃ out', f.tasks w = .repriming k tag args out' :=
    fun w k tag args out hw => runExecutor_reprimes hstep hw
  by_cases hready : f.state = .ready
  · rcases ready_serial hi hl hready with ⟨_, hex, _⟩ | ⟨c, command, k, tag, out, howner, hchild, hx⟩
    · simp only [Flight.runExecutor, hex] at hstep
      exact absurd hstep (by simp)
    · obtain ⟨hc, hmem, hover⟩ := runExecutor_overdue howner hx hstep
      refine h.keep (fun _ => ⟨hready, hc, fun j hj => ?_, hover⟩) hsnap hgen htasks
      obtain rfl : k = j := Option.some.inj (hchild.symm.trans hj)
      exact hmem
  · exact h.leave (hstate ▸ hready) hsnap hgen htasks

/-! ### The child

Only a child's answer changes its memory.  In READY the current child is on the command of the
caller that holds the lock, so that an answer which changes the dump goes to somebody who reads it.
-/

/-- In READY the current child is on no command but that of the caller on the thread. -/
theorem ready_busy {l : Life} {k : ChildId} {tag : Tag} {command : Command} (hi : Inv prog f)
    (hl : f.Shows l) (hready : f.state = .ready) (hk : f.child = some k)
    (hphase : (f.children k).phase = .busy tag command) :
    ∃ c, (f.lock.owner = some (.call c command (.exchanging k tag none)) ∧
        (f.children k).outbox = []) ∨
      ∃ command' tag' reason,
        f.lock.owner = some (.call c command' (.exchanging k tag' (some (.lost reason)))) := by
  have hbusy : (f.children k).phase.settled ≠ true := by
    rw [hphase]
    simp [Phase.settled]
  rcases ready_serial hi hl hready with ⟨_, _, hq⟩ | ⟨c, command', k', tag', out, howner, hc, hx⟩
  · exact absurd (hq k hk).settled hbusy
  · obtain rfl : k' = k := Option.some.inj (hc.symm.trans hk)
    rcases out with _ | _ | reason
    · rcases hx with ⟨_, hq⟩ | ⟨_, _, ho⟩
      · exact absurd hq.settled hbusy
      · cases ho with
        | unread _ _ hsettled | answered _ _ _ hsettled _ => exact absurd hsettled hbusy
        | working _ hout hphase' =>
            obtain ⟨rfl, rfl⟩ := Phase.busy.inj (hphase.symm.trans hphase')
            exact ⟨c, Or.inl ⟨howner, hout⟩⟩
    · exact absurd hx.2.2.1.settled hbusy
    · exact ⟨c, Or.inr ⟨command', tag', reason, howner⟩⟩

/-- A child's answer changes what it would dump only if it says so to a waiting caller. -/
theorem Mirrored.answer {k : ChildId} {world : σ} {l : Life} (h : Mirrored shown f)
    (hi : Inv prog f) (hl : f.Shows l)
    (hok : ∀ tag command, (f.children k).phase = .busy tag command →
      prog.Accounts shown world command (f.children k).mem)
    (hstep : f.answer prog k world = some f') : Mirrored shown f' := by
  simp only [Flight.answer] at hstep
  split at hstep
  · rename_i tag command hphase
    split at hstep
    · obtain rfl := Option.some.inj hstep
      refine ⟨h.past, h.behind, fun hready snap j hs hg hj => ?_⟩
      by_cases hjk : j = k
      · subst hjk
        rcases ready_busy hi hl hready hj hphase with
          ⟨c, ⟨howner, hout⟩ | ⟨command', tag', reason, howner⟩⟩
        · rcases hok tag command hphase with hsame | ⟨hprep, hans⟩
          · refine Or.imp (fun hm => ?_) (fun hov => ?_) (h.told hready snap j hs hg hj)
            · simp only [Flight.setChild, update_self]
              exact hsame.trans hm
            · exact hov.setChild fun _ hs => List.mem_append_left _ hs
          · refine Or.inr ⟨c, command, j, tag, none, howner, hprep, ?_⟩
            simp only [Flight.setChild, update_self]
            exact ⟨_, List.mem_append_right _ (List.mem_singleton_self _), hans⟩
        · exact Or.inr ⟨c, command', j, tag', _, howner, trivial⟩
      · refine Or.imp (fun hm => ?_) (fun hov => ?_) (h.told hready snap j hs hg hj)
        · simp only [Flight.setChild, update_of_ne hjk]
          exact hm
        · exact hov.setChild fun _ hs => List.mem_append_left _ hs
    · exact absurd hstep (by simp)
  · exact absurd hstep (by simp)

/-- **A child's step**: where it changes what the child would show, its answer is overdue until it
is read. -/
theorem Mirrored.childStep {a : FlightAction σ} {e : Effects} {k : ChildId} {l : Life}
    (h : Mirrored shown f) (hi : Inv prog f) (hl : f.Shows l)
    (hok : accounted prog shown f a f') (ha : a.child? = some k)
    (hstep : f.next cfg prog a = some (f', e)) : Mirrored shown f' := by
  cases a <;> simp only [FlightAction.child?, Option.some.injEq, reduceCtorEq] at ha <;> subst ha
    <;> simp only [next, quietly, Option.map_eq_some_iff, Prod.mk.injEq] at hstep
    <;> obtain ⟨g, hg, rfl, -⟩ := hstep
  case boot k b =>
    simp only [boot] at hg
    split at hg
    · cases b <;> obtain rfl := Option.some.inj hg
      all_goals exact h.setChild rfl fun _ hs => List.mem_append_left _ hs
    · exact absurd hg (by simp)
  case receive k =>
    simp only [receive] at hg
    split at hg
    · split at hg
      · obtain rfl := Option.some.inj hg
        exact h.setChild rfl fun _ hs => hs
      · exact absurd hg (by simp)
    · exact absurd hg (by simp)
  case answer k world =>
    exact h.answer hi hl (fun tag command hphase => hok.2 k world tag command rfl hphase) hg
  case finishDeferred k =>
    simp only [finishDeferred] at hg
    split at hg
    · obtain rfl := Option.some.inj hg
      exact h.setChild rfl fun _ hs => hs
    · exact absurd hg (by simp)
  case die k =>
    simp only [die] at hg
    split at hg
    · obtain rfl := Option.some.inj hg
      exact h.setChild rfl fun _ hs => hs
    · exact absurd hg (by simp)

/-! ### Steps that read a reply

A good reply to a prepare carries what its child dumps, and the child has done nothing since, so
the snapshot taken from it is right when it is taken.  Any other reply leaves both as they were.
-/

/-- With no snapshot of the present generation there is nothing to be wrong about. -/
theorem Mirrored.stale
    (h : ∀ snap, f.configSnapshot = some snap → snap.generation < f.generation) :
    Mirrored shown f :=
  ⟨fun snap hs => Nat.le_of_lt (h snap hs), fun _ _ _ _ _ _ => h,
    fun _ snap _ hs hg _ => absurd hg (Nat.ne_of_lt (h snap hs))⟩

/-- A snapshot just taken is what the child that answered would dump. -/
theorem Mirrored.taken {k : ChildId}
    (hsnap : f.configSnapshot = some ⟨shown (f.children k).mem, f.generation⟩)
    (hchild : f.child = some k)
    (hnobody : ∀ w k tag args out, f.tasks w ≠ .repriming k tag args out) : Mirrored shown f := by
  refine ⟨?_, ?_, ?_⟩
  · intro snap hs
    obtain rfl := Option.some.inj (hsnap.symm.trans hs)
    exact Nat.le_refl _
  · intro w k tag args out hw
    exact absurd hw (hnobody w k tag args out)
  · intro _ snap j hs _ hj
    obtain rfl := Option.some.inj (hsnap.symm.trans hs)
    obtain rfl : k = j := Option.some.inj (hchild.symm.trans hj)
    exact Or.inl rfl

/-- A prepare's good reply says what its child would dump now. -/
theorem reported_dump {k : ChildId} {tag : Tag} {args : PrepareCommand} {c : Child κ} {s : Sent}
    (hreports : prog.Reports shown) (ha : Answers prog k tag (.prepare args) c s)
    (hok : s.msg.ok = true) : s.msg.configDump = some (shown c.mem) := by
  obtain ⟨world, mem, hrun⟩ := ha.ran
  have h := hreports world args mem
  rw [hrun] at h
  exact h hok

/-- A flight that restarts is not READY. -/
theorem startRestart_left : (startRestart f).state ≠ .ready := by
  unfold startRestart
  split
  · rename_i hstopping
    rw [hstopping]
    simp
  · dsimp only
    split <;> simp [Flight.setTask]

/-- **A caller takes its answer**, and what it reports is what the child shows. -/
theorem Mirrored.afterExchange {c : CallId} {command : Command} {k : ChildId} {tag : Tag}
    {out : Outcome} (hreports : prog.Reports shown) (h : Mirrored shown f)
    (hi : Inv prog f)
    (howner : f.lock.owner = some (.call c command (.exchanging k tag (some out)))) :
    Mirrored shown (f.afterExchange c command out).1 := by
  obtain ⟨inactive, hready, hchild, _, hx⟩ := hi.serial.served howner
  cases out with
  | lost reason =>
      have hnoted : Mirrored shown
          (noteLoss reason (some command.cmd) { f with inFlight := f.inFlight - 1 }) := h.same rfl rfl
      exact hnoted.startRestart.write startRestart_left rfl
  | reply s =>
      obtain ⟨_, _, _, ha⟩ := hx
      have hdue : f.Overdue → (∃ args, command = .prepare args) ∧ s.msg.ok = true := by
        intro hex
        obtain ⟨c', command', k', tag', out', ho', hwhat⟩ := hex
        obtain ⟨rfl, rfl, rfl, rfl, rfl⟩ : c = c' ∧ command = command' ∧ k = k' ∧ tag = tag' ∧
            some (.reply s) = out' := by
          have := howner.symm.trans ho'
          simpa using this
        exact hwhat
      -- Nothing is due once the reply was read, so the books were right already.
      have hsettled : ¬ f.Overdue → Mirrored shown
          { f with
            inFlight := f.inFlight - 1, acked := f.acknowledge s, lock := f.lock.release } := by
        intro hnot
        exact h.keep (fun hr => ⟨hr, rfl, fun _ _ => rfl, fun hov => absurd hov hnot⟩) rfl rfl
          fun _ _ _ _ out hw => ⟨out, hw⟩
      unfold Flight.afterExchange
      cases command with
      | prepare args =>
          cases hok : s.msg.ok with
          | true =>
              have hdump := reported_dump hreports ha hok
              simp only [hok, if_true]
              refine Mirrored.taken (k := k) ?_ hchild ?_
              · simp only [endCall, notePrepared, hdump]
                rfl
              · intro w j tag args out hc
                have := inactive w
                rw [show f.tasks w = .repriming j tag args out from hc] at this
                exact absurd this (by simp [BringUp.active])
          | false =>
              simp only [hok]
              exact hsettled fun hov => by simp [(hdue hov).2] at hok
      | _ => exact hsettled fun hov => by obtain ⟨⟨_, hc⟩, _⟩ := hdue hov; exact absurd hc (by simp)

/-! ### Steps of a bring-up

A bring-up raises the generation with every hello, which makes the old snapshot one of an earlier
generation; from there on there is nothing to be wrong about until a replay, or a caller, brings a
new one.
-/

/-- To replay a prepare writes no record. -/
theorem reprime_books :
    (reprime w f).configSnapshot = f.configSnapshot ∧ (reprime w f).generation = f.generation := by
  have hup : ∀ g : Flight κ, (readyUp w g).configSnapshot = g.configSnapshot ∧
      (readyUp w g).generation = g.generation := by
    intro g
    cases w <;> exact ⟨rfl, rfl⟩
  unfold reprime
  split
  · exact hup _
  · split
    · exact hup _
    · split
      · exact hup _
      · exact ⟨rfl, rfl⟩

theorem Mirrored.retry {reason : String} {provokedBy : Option String} (h : Mirrored shown f)
    (hready : f.state ≠ .ready) : Mirrored shown (retry cfg w reason provokedBy f).1 :=
  Mirrored.bringUpLoop (h.same (by rfl) (by rfl)) hready

theorem Mirrored.afterHello {out : Outcome} (h : Mirrored shown f) (hready : f.state ≠ .ready) :
    Mirrored shown (afterHello cfg w out f).1 := by
  have hread : Mirrored shown { f with inFlight := f.inFlight - 1 } := h.same rfl rfl
  unfold Flight.afterHello
  cases out with
  | lost reason => exact hread.retry hready
  | reply s =>
      dsimp only
      split
      · have hdegraded : Mirrored shown { f with state := .degraded } := h.write (by simp) rfl
        refine Mirrored.setTask (hdegraded.same (by rfl) (by rfl)) ?_ (by simp)
        simp [submit]
      · -- Every snapshot is of a generation that has just passed.
        refine Mirrored.stale fun snap hs => ?_
        obtain ⟨hsnap, hgen⟩ := reprime_books (w := w) (f := { f with
          inFlight := f.inFlight - 1, generation := f.generation + 1, restartAttempts := 0 })
        rw [hsnap] at hs
        rw [hgen]
        exact Nat.lt_succ_of_le (h.past snap hs)
      · exact hread.retry hready

/-- **A replay is over**, and what was reported is what the child shows. -/
theorem Mirrored.afterReprime {k : ChildId} {tag : Tag} {args : PrepareCommand} {out : Outcome}
    (hreports : prog.Reports shown) (h : Mirrored shown f) (hready : f.state ≠ .ready)
    (hother : ∀ k tag args out, f.tasks w.other ≠ .repriming k tag args out)
    (hw : f.tasks w = .repriming k tag args (some out))
    (hd : Doing prog w f (.repriming k tag args (some out))) :
    Mirrored shown (afterReprime cfg w args out f).1 := by
  have hread : Mirrored shown { f with inFlight := f.inFlight - 1 } := h.same rfl rfl
  cases out with
  | lost reason => exact hread.retry hready
  | reply s =>
      obtain ⟨hchild, _, _, _, _, ha⟩ := hd
      unfold Flight.afterReprime
      cases hok : s.msg.ok with
      | true =>
          have hdump := reported_dump hreports ha hok
          simp only [hok, if_true]
          refine Mirrored.taken (k := k) ?_ ?_ ?_
          · simp only [notePrepared, hdump]
            cases w <;> rfl
          · cases w <;> exact hchild
          · intro w' j tag' args' out'
            by_cases hww : w' = w
            · subst hww
              cases w' <;> simp [readyUp, Flight.endBringUp, Flight.setTask]
            · obtain rfl := eq_other hww
              cases w <;> exact hother j tag' args' out'
      | false =>
          simp only [hok]
          refine Mirrored.stale fun snap hs => ?_
          cases w <;> exact h.behind _ k tag args _ hw snap hs

/-- **A bring-up task goes on.** -/
theorem Mirrored.resumeBringUp {e : Effects} {l : Life} (hreports : prog.Reports shown)
    (h : Mirrored shown f) (hi : Inv prog f) (hl : f.Shows l)
    (hstep : f.resumeBringUp cfg prog w = some (f', e)) : Mirrored shown f' := by
  obtain ⟨habsent, hready⟩ := hl.acting hstep
  have hother : ∀ k tag args out, f.tasks w.other ≠ .repriming k tag args out := by
    intro k tag args out hc
    rw [habsent] at hc
    exact absurd hc (by simp)
  cases resumeBringUp_resumed hstep with
  | startup htask => exact h.bringUpLoop hready
  | restart htask hstartup hfree =>
      exact Mirrored.bringUpLoop (h.write hready (by rfl)) hready
  | queued htask hstartup =>
      have hset : Mirrored shown (f.setTask .restart .queued) := h.setTask hready (by simp)
      exact hset.write hready rfl
  | backoff w htask => exact Mirrored.setTask (h.same (by rfl) (by rfl)) hready (by simp)
  | reaped w htask =>
      have hset : Mirrored shown (f.setTask w (.hello f.spawns none)) := h.setTask hready (by simp)
      exact hset.write hready rfl
  | gaveUp w fatal htask => exact Mirrored.endBringUp (h.write hready (by rfl)) hready
  | hello w k out htask => exact h.afterHello hready
  | reprimed w k tag args out htask =>
      have hd := hi.doing (w := w) (by rw [htask]; rfl)
      rw [htask] at hd
      exact h.afterReprime hreports hready hother htask hd

/-! ### Every run that accounts for itself

The invariant holds at the start, with no snapshot at all, and every accounted step keeps it.
-/

/-- At first there is no snapshot. -/
theorem started_mirrored : Mirrored shown (Flight.started prog) :=
  Mirrored.stale fun _ hs => absurd hs (by simp [Flight.started])

/-- A caller that waits for the flight to come up is not on the thread. -/
theorem quiet_of_waiting {c : CallId} {command : Command} {woken : Bool}
    (howner : f.lock.owner = some (.call c command (.waiting woken))) : f.exchanging = false := by
  rw [exchanging, howner]
  rfl

/-- The step lemma. -/
theorem next_mirrored {a : FlightAction σ} {e : Effects} {l : Life} (hreports : prog.Reports shown)
    (h : Mirrored shown f) (hi : Inv prog f) (hl : f.Shows l) (hok : accounted prog shown f a f')
    (hstep : f.next cfg prog a = some (f', e)) : Mirrored shown f' := by
  cases ha : a.child? with
  | some k => exact h.childStep hi hl hok ha hstep
  | none =>
      cases a with
      | call c command =>
          obtain rfl := congrArg Prod.fst (Option.some.inj hstep)
          simp only [call]
          split
          · rename_i hfree
            refine h.underLock ?_
            rw [exchanging, (FifoLock.uncontended_iff.mp hfree).1]
            rfl
          · exact h.same rfl rfl
      | takeLock =>
          cases takeLock_locked hstep with
          | call c command lock hnext =>
              obtain ⟨howner, _, howner'⟩ := FifoLock.next?_eq_some.mp hnext
              refine Mirrored.underLock (h.relock ?_ (by rfl)) ?_
              · rw [exchanging, howner]
                rfl
              · simp [exchanging, howner']
          | restart lock hnext =>
              have hready : f.state ≠ .ready := by
                have hstands : (f.tasks .restart).standing = .bringingUp := by
                  rw [hi.held.restart_queued hnext]
                  rfl
                rcases hl.standing_other (w := .restart) (by simp [hstands]) with rfl | rfl
                · simp [hl.1, BringUpTask.state]
                · simp [hl.1]
              exact Mirrored.bringUpLoop (h.write hready (by rfl)) hready
      | resumeCaller =>
          cases resumeCaller_wentOn hstep with
          | exchanges c command howner hready => exact h.exchange (quiet_of_waiting howner)
          | refused c command howner hready => exact h.relock (quiet_of_waiting howner) rfl
          | answered c command k tag out howner => exact h.afterExchange hreports hi howner
      | startupTimeout =>
          cases startupTimeout_timedOut hstep with
          | turnedAway c command woken howner => exact h.relock (quiet_of_waiting howner) rfl
      | resumeBringUp w => exact h.resumeBringUp hreports hi hl hstep
      | requestRestart reason =>
          obtain rfl := congrArg Prod.fst (Option.some.inj hstep)
          exact h.requestRestart
      | runExecutor fails => exact h.runExecutor hi hl (next_runExecutor hstep).1
      | boot k b | receive k | answer k world | finishDeferred k | die k =>
          exact absurd ha (by simp [FlightAction.child?])

/-- The run lemma. -/
theorem reach_mirrored (hreports : prog.Reports shown)
    (h : (flightSystem cfg prog).Reach (accounted prog shown) f) : Mirrored shown f := by
  refine h.invariant' ?_ ?_
  · intro _ heq
    subst heq
    exact started_mirrored
  · intro f a f' hr hm hok hc
    obtain ⟨e, hstep⟩ := hc
    have hsafe : (flightSystem cfg prog).Reach safeRestarts f :=
      hr.mono fun _ _ _ _ hok _ => hok.1
    obtain ⟨hi, l, hl⟩ := reach_life hsafe
    exact next_mirrored hreports hm hi hl hok hstep

/-! ### What the children hold

A second induction, of the same shape, is about the memory of the children and not about the
front-end: whatever is true of a fresh coordinator, and kept by each command, is true of every
child in every run.  Only `answer` writes a memory, so the other steps are settled by what they
leave alone.
-/

theorem endBringUp_children : (endBringUp w f).children = f.children := by
  cases w <;> rfl

theorem bringUpLoop_children : (bringUpLoop cfg w f).children = f.children := by
  unfold bringUpLoop
  split
  · exact endBringUp_children
  split
  · exact endBringUp_children
  · dsimp only
    split <;> rfl

theorem startRestart_children : (startRestart f).children = f.children := by
  unfold startRestart
  split
  · rfl
  · dsimp only
    split <;> rfl

theorem reprime_children : (reprime w f).children = f.children := by
  unfold reprime
  split
  · exact endBringUp_children
  split
  · exact endBringUp_children
  split
  · exact endBringUp_children
  · rfl

theorem underLock_children {c : CallId} {command : Command} :
    (f.underLock c command).1.children = f.children := by
  unfold underLock exchange
  split
  · split <;> rfl
  split <;> rfl

/-- Every child's memory has the property. -/
def Hold (P : κ → Prop) (f : Flight κ) : Prop := ∀ k, P (f.children k).mem

theorem Hold.congr {P : κ → Prop} (h : Hold P f) (hchildren : f'.children = f.children) :
    Hold P f' := by
  intro k
  rw [hchildren]
  exact h k

theorem Hold.setChild {P : κ → Prop} {k : ChildId} {c : Child κ} (h : Hold P f) (hc : P c.mem) :
    Hold P (f.setChild k c) := by
  intro j
  by_cases hjk : j = k
  · subst hjk
    simp only [Flight.setChild, update_self]
    exact hc
  · simp only [Flight.setChild, update_of_ne hjk]
    exact h j

theorem Hold.killChild {P : κ → Prop} (h : Hold P f) : Hold P (killChild f) := by
  unfold Flight.killChild
  split
  · exact h
  · exact h.setChild (h _)

theorem Hold.childStep {P : κ → Prop} {k : ChildId} {c' : Child κ} (hP : prog.Preserves P)
    (h : Hold P f) (hs : ChildStep prog k (f.children k) c') : Hold P (f.setChild k c') := by
  refine h.setChild ?_
  cases hs with
  | answer tag command world _ _ => exact hP.run world command _ (h k)
  | _ => exact h k

theorem Hold.runExecutor {P : κ → Prop} {fails : Option String} (h : Hold P f)
    (hstep : f.runExecutor fails = some f') : Hold P f' := by
  have hreaped : ∀ (w : BringUpTask) (g : Flight κ), Hold P g → Hold P (deliverReaped w g) := by
    intro w g hg
    unfold deliverReaped
    split <;> exact hg
  cases runExecutor_executed hstep with
  | reap w rest hjob => exact h
  | reapedNone w rest hjob => exact hreaped _ _ h
  | reaped w k rest hjob => exact hreaped _ _ (h.setChild (h k))
  | unwritten o k tag command rest reason hjob hdead => exact h.congr deliver_children
  | written o k tag command rest hjob => exact Hold.setChild h (h k)
  | lost o k timed rest reason hjob hmay => exact h.congr deliver_children
  | replied o k timed rest s more hjob hout =>
      have hset : Hold P (f.setChild k { f.children k with outbox := more }) := h.setChild (h k)
      exact hset.congr deliver_children

theorem Hold.resumeBringUp {P : κ → Prop} {e : Effects} (hP : prog.Preserves P) (h : Hold P f)
    (hstep : f.resumeBringUp cfg prog w = some (f', e)) : Hold P f' := by
  cases resumeBringUp_resumed hstep with
  | startup htask => exact h.congr bringUpLoop_children
  | restart htask hstartup hfree => exact h.congr bringUpLoop_children
  | queued htask hstartup => exact h
  | backoff w htask => exact h
  | reaped w htask => exact Hold.setChild h hP.start
  | gaveUp w fatal htask => exact h.congr endBringUp_children
  | hello w k out htask =>
      unfold Flight.afterHello
      split
      · exact h.congr bringUpLoop_children
      · dsimp only
        split
        · exact h
        · exact h.congr reprime_children
        · exact h.congr bringUpLoop_children
  | reprimed w k tag args out htask =>
      unfold Flight.afterReprime
      split
      · exact h.congr bringUpLoop_children
      · dsimp only
        split <;> exact h.congr endBringUp_children

theorem Hold.afterExchange {P : κ → Prop} {c : CallId} {command : Command} {out : Outcome}
    (h : Hold P f) : Hold P (f.afterExchange c command out).1 := by
  unfold Flight.afterExchange
  split
  · exact h.congr startRestart_children
  · dsimp only
    split
    · split <;> exact h
    · exact h

theorem Hold.requestRestart {P : κ → Prop} {reason : String} (h : Hold P f) :
    Hold P (f.requestRestart reason).1 := by
  unfold Flight.requestRestart
  split
  · exact h.congr startRestart_children
  split
  · exact h.killChild.congr startRestart_children
  · exact h.killChild

/-- **What a child holds is only ever its start, or what commands made of that.** -/
theorem Hold.next {P : κ → Prop} {a : FlightAction σ} {e : Effects} (hP : prog.Preserves P)
    (h : Hold P f) (hstep : f.next cfg prog a = some (f', e)) : Hold P f' := by
  cases ha : a.child? with
  | some k =>
      obtain ⟨_, c', hs, rfl⟩ := next_child ha hstep
      exact h.childStep hP hs
  | none =>
      cases a with
      | call c command =>
          obtain rfl := congrArg Prod.fst (Option.some.inj hstep)
          simp only [call]
          split
          · exact h.congr underLock_children
          · exact h
      | takeLock =>
          cases takeLock_locked hstep with
          | call c command lock hnext => exact h.congr underLock_children
          | restart lock hnext => exact h.congr bringUpLoop_children
      | resumeCaller =>
          cases resumeCaller_wentOn hstep with
          | exchanges c command howner hready =>
              unfold Flight.exchange
              split <;> exact h
          | refused c command howner hready => exact h
          | answered c command k tag out howner => exact h.afterExchange
      | startupTimeout =>
          cases startupTimeout_timedOut hstep with
          | turnedAway c command woken howner => exact h
      | resumeBringUp w => exact h.resumeBringUp hP hstep
      | requestRestart reason =>
          obtain rfl := congrArg Prod.fst (Option.some.inj hstep)
          exact h.requestRestart
      | runExecutor fails => exact h.runExecutor (next_runExecutor hstep).1
      | boot k b | receive k | answer k world | finishDeferred k | die k =>
          exact absurd ha (by simp [FlightAction.child?])

/-- What every child starts with and every step of a child keeps holds of all children, in every
run. -/
theorem reach_hold {P : κ → Prop} {ok : Flight κ → FlightAction σ → Flight κ → Prop}
    (hP : prog.Preserves P) (h : (flightSystem cfg prog).Reach ok f) : Hold P f := by
  refine h.invariant ?_ ?_
  · intro _ heq
    subst heq
    exact fun _ => hP.start
  · intro f a f' hf _ hc
    obtain ⟨e, hstep⟩ := hc
    exact hf.next hP hstep

end Flight

end DonutServer
