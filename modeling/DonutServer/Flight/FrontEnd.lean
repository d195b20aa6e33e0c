/-
The front-end's own segments keep the invariant.

A bring-up task that runs is alone: no caller is on the thread, nothing is in the
executor, and the other bring-up is not in `_bring_up`.  `Running` says so, and
every segment of `_bring_up` starts from it.  The one place where it is not known
beforehand is where `_restart` comes to run while the startup task is active; there
the run leaves the class of runs this file is about, unless `_bring_up` gives up at
once and nothing has happened.
-/
import DonutServer.Flight.Threads

namespace DonutServer

open Function

variable {κ σ : Type} {prog : ChildProgram κ σ} {cfg : CoordSettings}

namespace Flight

variable {f f' : Flight κ} {w : BringUpTask}

/-! ### A bring-up task that runs

A segment of `_bring_up` goes through several states of the flight before it comes to its next
await, and the invariant does not hold in all of them.  `Running` is what does hold: the task is
nowhere to be seen, and nothing else goes on.  Suspending the task again, or ending it, gives the
invariant back.
-/

/-- Task `w` is inside `_bring_up`, between two awaits, and nothing else goes on. -/
structure Running (prog : ChildProgram κ σ) (w : BringUpTask) (f : Flight κ) : Prop where
  executor : f.executor = []
  inFlight : f.inFlight = 0
  quiet : f.exchanging = false
  accounted : Accounted prog f
  alone : match w with
    | .startup => (f.tasks .restart).active = false ∧ f.lock.owner ≠ some .restart ∧
        f.state ≠ .ready ∧
        f.lock.waiters.count .restart = if f.tasks .restart = .queued then 1 else 0
    | .restart => f.tasks .startup = .absent ∧ f.lock.owner = some .restart ∧
        f.lock.waiters.count .restart = 0

/-- Only these parts of a flight are looked at. -/
theorem Running.congr {g : Flight κ} (h : Running prog w f)
    (hsame : (g.state, g.lock, g.tasks, g.executor, g.child, g.spawns, g.children) =
      (f.state, f.lock, f.tasks, f.executor, f.child, f.spawns, f.children))
    (hinFlight : g.inFlight = f.inFlight) : Running prog w g := by
  simp only [Prod.mk.injEq] at hsame
  obtain ⟨hstate, hlock, htasks, hexecutor, hchild, hspawns, hchildren⟩ := hsame
  refine ⟨?_, ?_, ?_, h.accounted.congr (by rw [hexecutor, hchild, hspawns, hchildren]), ?_⟩
  · rw [hexecutor]; exact h.executor
  · rw [hinFlight]; exact h.inFlight
  · rw [exchanging, hlock]; exact h.quiet
  · rw [hlock, htasks, hstate]; exact h.alone

/-- Leaving READY, or not being in it, hinders no bring-up. -/
theorem Running.state {s : CoordState} (h : Running prog w f) (hs : s ≠ .ready) :
    Running prog w { f with state := s } := by
  refine ⟨h.executor, h.inFlight, h.quiet, h.accounted.congr rfl, ?_⟩
  have ha := h.alone
  cases w with
  | startup => exact ⟨ha.1, ha.2.1, hs, ha.2.2.2⟩
  | restart => exact ha

/-- Whoever waits for the flight is woken, and is not exchanging yet. -/
theorem exchanging_setReady : (setReady f).exchanging = f.exchanging := by
  unfold setReady exchanging
  cases f.lock.owner <;> simp

/-- Nor does waking anybody make it a restart. -/
theorem owner_setReady : (setReady f).lock.owner = some .restart ↔ f.lock.owner = some .restart := by
  unfold setReady
  cases f.lock.owner <;> simp

/-- The task comes to its next await: `b`. -/
theorem Running.suspend {g : Flight κ} {b : BringUp} (h : Running prog w f) (hb : b.active = true)
    (htasks : g.tasks = update f.tasks w b) (hlock : g.lock = f.lock) (hstate : g.state = f.state)
    (hdoing : Doing prog w g b) (hacc : Accounted prog g) : Inv prog g := by
  have hne : b ≠ .queued ∧ b ≠ .scheduled := by
    constructor <;> rintro rfl <;> exact absurd hb (by simp [BringUp.active])
  have ha := h.alone
  have hself : g.tasks w = b := by rw [htasks, update_self]
  have hquiet : g.exchanging = false := by rw [exchanging, hlock]; exact h.quiet
  cases w with
  | startup =>
      have hr : g.tasks .restart = f.tasks .restart := by rw [htasks]; rfl
      refine ⟨⟨?_, ?_, ?_, ?_, ?_⟩, .bringUp .startup ?_ ?_ hquiet ?_, hacc⟩
      · rw [hr, ha.1, hlock]
        exact ⟨fun hc => absurd hc (by simp), fun hc => absurd hc ha.2.1⟩
      · rw [hr, hlock]; exact ha.2.2.2
      · rw [hself]; exact hne.1
      · rw [hself]; exact fun hc => absurd hc hne.2
      · rw [hstate]; exact fun hc => absurd hc ha.2.2.1
      · rw [hself]; exact hb
      · rw [show BringUpTask.startup.other = .restart from rfl, hr]; exact ha.1
      · rw [hself]; exact hdoing
  | restart =>
      have hs : g.tasks .startup = .absent := by rw [htasks]; exact ha.1
      refine ⟨⟨?_, ?_, ?_, ?_, ?_⟩, .bringUp .restart ?_ ?_ hquiet ?_, hacc⟩
      · rw [hself, hb, hlock, ha.2.1]; simp
      · rw [hself, if_neg hne.1, hlock]; exact ha.2.2
      · rw [hs]; simp
      · rw [hs]; simp
      · exact fun _ => hs
      · rw [hself]; exact hb
      · rw [show BringUpTask.restart.other = .startup from rfl, hs]; rfl
      · rw [hself]; exact hdoing

/-- The task returns. -/
theorem Running.ended (h : Running prog w f)
    (hready : f.state = .ready → ∀ k, f.child = some k → Quiet (f.children k)) :
    Inv prog (endBringUp w f) := by
  have ha := h.alone
  cases w with
  | startup =>
      refine ⟨⟨?_, ha.2.2.2, ?_, ?_, ?_⟩, .idle ?_ h.quiet h.executor h.inFlight hready,
        h.accounted.congr rfl⟩
      · show (f.tasks .restart).active = true ↔ _
        rw [ha.1]
        exact ⟨fun hc => absurd hc (by simp), fun hc => absurd hc ha.2.1⟩
      · simp [endBringUp]
      · simp [endBringUp]
      · intro _
        simp [endBringUp]
      · intro hx
        rcases hx with _ | _
        · rfl
        · exact ha.1
  | restart =>
      refine ⟨⟨?_, ?_, ?_, ?_, ?_⟩, .idle ?_ rfl h.executor h.inFlight hready, h.accounted.congr rfl⟩
      · exact ⟨fun hc => absurd hc (by simp [endBringUp, setTask, BringUp.active]),
          fun hc => absurd hc (by simp [endBringUp])⟩
      · show f.lock.waiters.count .restart = _
        rw [ha.2.2]
        simp [endBringUp, setTask]
      · show f.tasks .startup ≠ .queued
        rw [ha.1]; simp
      · intro hc
        rw [show (endBringUp .restart f).tasks .startup = f.tasks .startup from rfl, ha.1] at hc
        exact absurd hc (by simp)
      · exact fun _ => ha.1
      · intro hx
        rcases hx with _ | _
        · show (f.tasks .startup).active = false
          rw [ha.1]; rfl
        · rfl

/-! ### The segments of `_bring_up`

Each piece of `_bring_up` is taken from `Running` to `Running` or to the next await.  A child is
spawned behind a reap, so the one before it is gone; READY is entered behind a hello or a replay,
so the pipe of the new child is empty.
-/

/-- READY is set, and the task is still inside `_bring_up`. -/
theorem Running.setReady (h : Running prog w f) : Running prog w (setReady f) := by
  refine ⟨h.executor, h.inFlight, exchanging_setReady.trans h.quiet, h.accounted.congr rfl, ?_⟩
  have ha := h.alone
  cases w with
  | startup => exact ⟨ha.1, fun hc => ha.2.1 (owner_setReady.mp hc), ha.2.2⟩
  | restart => exact ⟨ha.1, owner_setReady.mpr ha.2.1, ha.2.2⟩

/-- It comes to the await of its reap. -/
theorem Running.reap (h : Running prog w f) (fatal : Option String) :
    Inv prog ((f.submit (.reap w)).setTask w (.reaping fatal false)) := by
  refine h.suspend rfl rfl rfl rfl ⟨Or.inl ?_, h.inFlight⟩ ?_
  · simp [Flight.setTask, submit, h.executor]
  · exact (h.accounted.executor [.reap w] (by rw [h.executor]; simp) (by simp)).congr
      (by simp [Flight.setTask, submit, h.executor])

/-- It tries once more, or gives up; in both cases a reap is what it comes to first. -/
theorem Running.bringUpLoop (h : Running prog w f) : Inv prog (bringUpLoop cfg w f) := by
  unfold Flight.bringUpLoop
  split
  · rename_i hstop
    exact h.ended (by rw [hstop]; simp)
  split
  · refine Running.ended (Running.setReady
      ((h.state (s := .degraded) (by simp)).congr (by rfl) (by rfl))) ?_
    intro hc
    exact absurd hc (by simp [Flight.setReady])
  · dsimp only
    split
    · exact Running.reap (h.congr (by rfl) (by rfl)) none
    · exact h.suspend rfl rfl rfl rfl ⟨h.executor, h.inFlight⟩ (h.accounted.congr (by rfl))

/-- An attempt has failed. -/
theorem Running.retry (h : Running prog w f) (reason : String) (provokedBy : Option String) :
    Inv prog (retry cfg w reason provokedBy f).1 :=
  Running.bringUpLoop (h.congr (by rfl) (by rfl))

/-- READY is reached with an empty pipe. -/
theorem Running.readyUp {k : ChildId} (h : Running prog w f) (hchild : f.child = some k)
    (hq : Quiet (f.children k)) : Inv prog (readyUp w f) := by
  have ha := h.alone
  have hquiet : ∀ j, f.child = some j → Quiet (f.children j) := by
    intro j hj
    obtain rfl : k = j := Option.some.inj (hchild.symm.trans hj)
    exact hq
  -- The startup task leaves READY behind it, the restart finds no startup task left.
  cases w with
  | startup =>
      have hr : Running prog .startup (Flight.setReady { f with lossProvokedBy := none }) :=
        Running.setReady (h.congr (by rfl) (by rfl))
      refine ⟨⟨?_, ?_, ?_, ?_, ?_⟩, .idle ?_ ?_ h.executor h.inFlight ?_, h.accounted.congr rfl⟩
      · show (f.tasks .restart).active = true ↔ _
        rw [ha.1]
        exact ⟨fun hc => absurd hc (by simp), fun hc => absurd (owner_setReady.mp hc) ha.2.1⟩
      · exact ha.2.2.2
      · simp [Flight.readyUp, endBringUp]
      · simp [Flight.readyUp, endBringUp]
      · intro _
        simp [Flight.readyUp, endBringUp]
      · intro hx
        rcases hx with _ | _
        · rfl
        · exact ha.1
      · exact hr.quiet
      · exact fun _ => hquiet
  | restart =>
      refine Running.ended (Running.setReady ?_) fun _ => hquiet
      exact ⟨h.executor, h.inFlight, h.quiet, h.accounted.congr rfl, ha⟩

/-- A prepare is replayed, on a pipe that is empty. -/
theorem Running.reprime {k : ChildId} (h : Running prog w f) (hchild : f.child = some k)
    (hq : Quiet (f.children k)) : Inv prog (reprime w f) := by
  unfold Flight.reprime
  split
  · exact h.readyUp hchild hq
  split
  · exact h.readyUp hchild hq
  split
  · rename_i hnone
    rw [hchild] at hnone
    exact absurd hnone (by simp)
  · rename_i args _ _ _ k' hk'
    obtain rfl : k = k' := Option.some.inj (hchild.symm.trans hk')
    refine h.suspend rfl rfl rfl rfl ⟨hchild, ?_, Or.inl ⟨?_, hq⟩⟩ ?_
    · simp [Flight.setTask, startExchange, h.inFlight]
    · simp [Flight.setTask, startExchange, submit, h.executor]
    · exact (h.accounted.executor [.exchange (.task w) k f.nextTag (.prepare args)]
        (by rw [h.executor]; simp) (by simp)).congr
        (by simp [Flight.setTask, startExchange, submit, h.executor])

/-- A child is spawned only once every earlier one is reaped. -/
theorem Running.spawnChild (h : Running prog w f) (hchild : f.child = none) :
    Inv prog (spawnChild prog w f) := by
  refine h.suspend (g := Flight.spawnChild prog w f) rfl rfl rfl rfl ⟨?_, rfl, ?_, ?_⟩ ?_
  · simp [Flight.spawnChild, Flight.setTask, submit, setChild, h.executor]
  · simp [Flight.spawnChild, h.inFlight]
  · simp only [Flight.spawnChild, Flight.setTask, submit, setChild, update_self]
    exact .booting rfl rfl rfl rfl
  · have hex : (Flight.spawnChild prog w f).executor = [.awaitReply (.task w) f.spawns true] := by
      simp [Flight.spawnChild, Flight.setTask, submit, setChild, h.executor]
    have hkids : (Flight.spawnChild prog w f).children =
        update f.children f.spawns (.born prog) := rfl
    refine ⟨fun j hj => ?_, fun j hj => ?_, fun w' j hj => ?_, fun j hj => ?_, fun j hj => ?_⟩
    · have hj' : f.spawns < j := hj
      rw [hkids, update_of_ne (Nat.ne_of_gt hj')]
      exact h.accounted.spawned j (Nat.le_of_lt hj')
    · obtain rfl : f.spawns = j := Option.some.inj hj
      rfl
    · rw [hex] at hj
      exact absurd hj (by simp)
    · rcases Nat.lt_succ_iff_lt_or_eq.mp (show j < f.spawns + 1 from hj) with hlt | rfl
      · rcases h.accounted.reaped j hlt with hr | hc | ⟨w', hw'⟩
        · rw [hkids, update_of_ne (Nat.ne_of_lt hlt)]
          exact Or.inl hr
        · rw [hchild] at hc
          exact absurd hc (by simp)
        · rw [h.executor] at hw'
          exact absurd hw' (by simp)
      · exact Or.inr (Or.inl rfl)
    · rw [hkids] at hj ⊢
      by_cases hjk : j = f.spawns
      · subst hjk
        rw [update_self] at hj
        exact absurd hj (by simp [Child.born])
      · rw [update_of_ne hjk] at hj ⊢
        exact h.accounted.dead j hj

/-! ### Entering and resuming a bring-up

A task that was suspended comes back with the answer it waited for, and what `Doing` says of that
await is what the segment behind it starts from.  Entering is the delicate part: the restart may
get the lock while the startup task is at work, and then either gives up at once or leaves the runs
that are looked at here.
-/

/-- A bring-up task on the thread that has its answer is alone. -/
theorem Inv.running (hi : Inv prog f) (hactive : (f.tasks w).active = true)
    (hex : f.executor = []) : Running prog w { f with inFlight := 0 } := by
  have hh := hi.held
  cases hi.serial with
  | idle inactive _ _ _ _ => exact absurd (inactive w) (by simp [hactive])
  | caller _ _ _ _ _ _ inactive _ _ _ _ => exact absurd (inactive w) (by simp [hactive])
  | bringUp w' hactive' hother hquiet _ =>
      obtain rfl : w' = w := by
        cases w' <;> cases w <;> first | rfl | exact absurd hother (by simp [BringUpTask.other, hactive])
      refine ⟨hex, rfl, hquiet, hi.accounted.congr rfl, ?_⟩
      cases w' with
      | startup =>
          have hr : (f.tasks .restart).active = false := hother
          refine ⟨hr, fun hc => ?_, fun hc => ?_, hh.queued⟩
          · rw [← hh.holds, hr] at hc
            exact absurd hc (by simp)
          · rw [hh.ready hc] at hactive
            exact absurd hactive (by simp [BringUp.active])
      | restart =>
          refine ⟨?_, hh.holds.mp hactive, ?_⟩
          · have hs : (f.tasks .startup).active = false := hother
            cases hs' : f.tasks .startup with
            | absent => rfl
            | scheduled =>
                rcases hh.order hs' with ho | ho <;> rw [ho] at hactive <;>
                  exact absurd hactive (by simp [BringUp.active])
            | queued => exact absurd hs' hh.startup
            | _ =>
                rw [hs'] at hs
                exact absurd hs (by simp [BringUp.active])
          · rw [hh.queued, if_neg]
            intro hc
            rw [hc] at hactive
            exact absurd hactive (by simp [BringUp.active])

/-- `_restart` gets the lock while the startup task is active, and `_bring_up` returns
at once: all it leaves is DEGRADED. -/
theorem Inv.restartGivesUp {g : Flight κ} (hi : Inv prog f)
    (hstartup : (f.tasks .startup).active = true) (hrestart : (f.tasks .restart).active = false)
    (hgiven : g.lock.waiters.count .restart = 0) (howner : g.lock.owner = none)
    (hstate : g.state ≠ .ready) (htasks : g.tasks = update f.tasks .restart .absent)
    (hexecutor : g.executor = f.executor) (hinFlight : g.inFlight = f.inFlight)
    (hchild : g.child = f.child) (hspawns : g.spawns = f.spawns)
    (hchildren : g.children = f.children) (hwritten : g.written = f.written) : Inv prog g := by
  have hh := hi.held
  have hs : g.tasks .startup = f.tasks .startup := by rw [htasks]; rfl
  have hr : g.tasks .restart = .absent := by rw [htasks]; rfl
  refine ⟨⟨?_, ?_, ?_, ?_, fun hc => absurd hc hstate⟩, ?_,
    hi.accounted.congr (by rw [hexecutor, hchild, hspawns, hchildren])⟩
  · rw [hr, howner]; simp [BringUp.active]
  · rw [hr, hgiven]; simp
  · rw [hs]; exact hh.startup
  · exact fun _ => Or.inl hr
  · cases hi.serial with
    | idle inactive _ _ _ _ => exact absurd (inactive .startup) (by simp [hstartup])
    | caller _ _ _ _ _ _ inactive _ _ _ _ => exact absurd (inactive .startup) (by simp [hstartup])
    | bringUp w' hactive' hother hquiet hdoing =>
        obtain rfl : w' = .startup := by
          cases w' with
          | startup => rfl
          | restart => exact absurd hactive' (by simp [hrestart])
        refine .bringUp .startup ?_ ?_ ?_ ?_
        · rw [hs]; exact hstartup
        · rw [show BringUpTask.startup.other = .restart from rfl, hr]; rfl
        · rw [exchanging, howner]; rfl
        · rw [hs]
          exact hdoing.congr (by rw [hexecutor, hinFlight, hchild, hchildren, hwritten])

/-- `_bring_up` entered by `_restart`, which has just got the lock. -/
theorem Inv.enterRestart {lock : FifoLock Holder Waiter} (hi : Inv prog f)
    (hinactive : (f.tasks .restart).active = false) (hstartup : f.tasks .startup ≠ .scheduled)
    (howner : f.lock.owner = none) (hlock : lock.owner = some .restart)
    (hcount : lock.waiters.count .restart = 0)
    (hone : AtMostOneBringUp (Flight.bringUpLoop cfg .restart { f with lock })) :
    Inv prog (Flight.bringUpLoop cfg .restart { f with lock }) := by
  by_cases hs : (f.tasks .startup).active = true
  · -- The loop has to give up at once: at its next await both would be active.
    have hready : f.state ≠ .ready := by
      intro hc
      rw [hi.held.ready hc] at hs
      exact absurd hs (by simp [BringUp.active])
    unfold Flight.bringUpLoop at hone ⊢
    dsimp only at hone ⊢
    split
    · exact hi.restartGivesUp hs hinactive hcount rfl hready rfl rfl rfl rfl rfl rfl rfl
    · rename_i hstop
      rw [if_neg hstop] at hone
      split
      · exact hi.restartGivesUp hs hinactive hcount rfl (by simp [endBringUp, Flight.setReady, setTask])
          rfl rfl rfl rfl rfl rfl rfl
      · rename_i hmax
        rw [if_neg hmax] at hone
        refine absurd ⟨?_, ?_⟩ hone
        · split <;> exact hs
        · split <;> rfl
  · rw [Bool.not_eq_true] at hs
    refine Running.bringUpLoop ?_
    have habsent : f.tasks .startup = .absent := by
      cases hs' : f.tasks .startup with
      | absent => rfl
      | scheduled => exact absurd hs' hstartup
      | queued => exact absurd hs' hi.held.startup
      | _ =>
          rw [hs'] at hs
          exact absurd hs (by simp [BringUp.active])
    have hquiet : ({ f with lock } : Flight κ).exchanging = false := by
      simp [exchanging, hlock, Holder.exchanging]
    cases hi.serial with
    | idle _ _ hex hin _ => exact ⟨hex, hin, hquiet, hi.accounted.congr rfl, habsent, hlock, hcount⟩
    | bringUp w hactive _ _ _ =>
        cases w with
        | startup => exact absurd hactive (by simp [hs])
        | restart => exact absurd hactive (by simp [hinactive])
    | caller _ _ _ _ _ ho _ _ _ _ _ => exact absurd (ho.symm.trans howner) (by simp)

/-- `_restart` joins the queue for the lock. -/
theorem Inv.queueRestart (hi : Inv prog f) (hw : f.tasks .restart = .scheduled)
    (hstartup : f.tasks .startup ≠ .scheduled) :
    Inv prog { f.setTask .restart .queued with lock := f.lock.enqueue .restart } := by
  have hh := hi.held
  have hinactive : (f.tasks .restart).active = false := by rw [hw]; rfl
  refine ⟨⟨?_, ?_, hh.startup, fun hc => absurd hc hstartup, hh.ready⟩, ?_, hi.accounted.congr rfl⟩
  · show _ ↔ f.lock.owner = some .restart
    rw [← hh.holds, hinactive, setTask_self]
    simp [BringUp.active]
  · have hq := hh.queued
    rw [hw] at hq
    simpa [Flight.setTask] using hq
  · have hkeep : ∀ w, (f.tasks w).active = false →
        ((f.setTask .restart .queued).tasks w).active = false := by
      rintro (_ | _) hc
      · exact hc
      · rfl
    cases hi.serial with
    | idle inactive hquiet hex hin hready =>
        exact .idle (fun w => hkeep w (inactive w)) hquiet hex hin hready
    | bringUp w hactive hother hquiet hd =>
        cases w with
        | startup => exact .bringUp .startup hactive (hkeep .restart hother) hquiet (hd.congr (by rfl))
        | restart => exact absurd hactive (by simp [hinactive])
    | caller c command k tag out ho inactive hready hchild hin hx =>
        exact .caller c command k tag out ho (fun w => hkeep w (inactive w)) hready hchild hin
          (hx.congr (by rfl))

/-- The startup task's first step. -/
theorem Inv.enterStartup (hi : Inv prog f) (hs : f.tasks .startup = .scheduled) :
    Running prog .startup f := by
  have hh := hi.held
  have hr : (f.tasks .restart).active = false := by
    rcases hh.order hs with ho | ho <;> rw [ho] <;> rfl
  have hready : f.state ≠ .ready := fun hc => absurd ((hh.ready hc).symm.trans hs) (by simp)
  have howner : f.lock.owner ≠ some .restart := by
    intro hc
    rw [← hh.holds, hr] at hc
    exact absurd hc (by simp)
  cases hi.serial with
  | idle _ hquiet hex hin _ =>
      exact ⟨hex, hin, hquiet, hi.accounted, hr, howner, hready, hh.queued⟩
  | bringUp w hactive _ _ _ =>
      cases w with
      | startup =>
          rw [hs] at hactive
          exact absurd hactive (by simp [BringUp.active])
      | restart => exact absurd hactive (by simp [hr])
  | caller _ _ _ _ _ _ _ hc _ _ _ => exact absurd hc hready

/-- What the first message leads to. -/
theorem Running.afterHello {k : ChildId} {out : Outcome}
    (h : Running prog w { f with inFlight := 0 }) (hin : f.inFlight = 1)
    (hd : Doing prog w f (.hello k (some out))) : Inv prog (afterHello cfg w out f).1 := by
  have hrun : Running prog w { f with inFlight := f.inFlight - 1 } :=
    h.congr rfl (by simp [hin])
  cases out with
  | lost reason => exact hrun.retry reason _
  | reply s =>
      obtain ⟨_, hchild, _, _, ⟨hmsg, hq, _⟩ | ⟨error, hmsg⟩⟩ := hd
      · simp only [Flight.afterHello, hmsg]
        exact Running.reprime (hrun.congr (by rfl) (by rfl)) hchild hq
      · simp only [Flight.afterHello, hmsg]
        exact Running.reap ((hrun.state (s := .degraded) (by simp)).congr (by rfl) (by rfl)) (some error)

/-- What the replay leads to. -/
theorem Running.afterReprime {k : ChildId} {tag : Tag} {args : PrepareCommand} {out : Outcome}
    (h : Running prog w { f with inFlight := 0 }) (hin : f.inFlight = 1)
    (hd : Doing prog w f (.repriming k tag args (some out))) :
    Inv prog (afterReprime cfg w args out f).1 := by
  have hrun : Running prog w { f with inFlight := f.inFlight - 1 } :=
    h.congr rfl (by simp [hin])
  cases out with
  | lost reason => exact hrun.retry reason _
  | reply s =>
      obtain ⟨hchild, _, _, _, hq, _⟩ := hd
      simp only [Flight.afterReprime]
      split
      · exact Running.readyUp (hrun.congr (by rfl) (by rfl)) hchild hq
      · exact Running.readyUp (hrun.congr (by rfl) (by rfl)) hchild hq

/-- An active bring-up task is what is going on. -/
theorem Inv.doing (hi : Inv prog f) (hactive : (f.tasks w).active = true) :
    Doing prog w f (f.tasks w) := by
  cases hi.serial with
  | idle inactive _ _ _ _ => exact absurd (inactive w) (by simp [hactive])
  | caller _ _ _ _ _ _ inactive _ _ _ _ => exact absurd (inactive w) (by simp [hactive])
  | bringUp w' _ hother _ hd =>
      cases w' <;> cases w <;>
        first | exact hd | exact absurd hother (by simp [BringUpTask.other, hactive])

/-- **A bring-up task keeps the invariant, as long as at most one is active.** -/
theorem resumeBringUp_inv {e : Effects} (hi : Inv prog f) (hone : AtMostOneBringUp f')
    (h : f.resumeBringUp cfg prog w = some (f', e)) : Inv prog f' := by
  have hrunning : ∀ {w : BringUpTask}, (f.tasks w).active = true → f.executor = [] →
      f.inFlight = 0 → Running prog w f :=
    fun hactive hex hin => (hi.running hactive hex).congr rfl hin
  cases resumeBringUp_resumed h with
  | startup htask => exact (hi.enterStartup htask).bringUpLoop
  | restart htask hstartup hfree =>
      have hinactive : (f.tasks .restart).active = false := by rw [htask]; rfl
      have hcount : f.lock.waiters.count .restart = 0 := by rw [hi.held.queued, htask]; simp
      exact hi.enterRestart hinactive hstartup (FifoLock.uncontended_iff.mp hfree).1 rfl hcount hone
  | queued htask hstartup => exact hi.queueRestart htask hstartup
  | backoff w htask =>
      have hactive : (f.tasks w).active = true := by rw [htask]; rfl
      have hd := hi.doing hactive
      rw [htask] at hd
      exact (hrunning hactive hd.1 hd.2).reap none
  | reaped w htask =>
      have hactive : (f.tasks w).active = true := by rw [htask]; rfl
      have hd := hi.doing hactive
      rw [htask] at hd
      exact (hrunning hactive hd.1 hd.2.2).spawnChild hd.2.1
  | gaveUp w fatal htask =>
      have hactive : (f.tasks w).active = true := by rw [htask]; rfl
      have hd := hi.doing hactive
      rw [htask] at hd
      refine (hrunning hactive hd.1 hd.2.2).setReady.ended fun _ k hk => ?_
      exact absurd (hd.2.1.symm.trans hk) (by simp)
  | hello w k out htask =>
      have hactive : (f.tasks w).active = true := by rw [htask]; rfl
      have hd := hi.doing hactive
      rw [htask] at hd
      have hex : f.executor = [] := by cases out <;> exact hd.1
      have hin : f.inFlight = 1 := by cases out <;> first | exact hd.2.2.1 | exact hd.2.2
      exact (hi.running hactive hex).afterHello hin hd
  | reprimed w k tag args out htask =>
      have hactive : (f.tasks w).active = true := by rw [htask]; rfl
      have hd := hi.doing hactive
      rw [htask] at hd
      have hex : f.executor = [] := by cases out <;> first | exact hd.2.2.1 | exact hd.2.2
      exact (hi.running hactive hex).afterReprime hd.2.1 hd

/-! ### Callers

A caller changes the conversation in two places, where it hands its command over and where it takes
the answer.  In all others it comes and goes as a bystander: it queues for the lock, waits for
READY, or is turned away, and the conversation of the others goes on as it was.
-/

/-- Whoever holds the lock is neither a restart nor on the thread: nobody does, or a
caller that waits for the flight to come up. -/
structure Bystander (o : Option Holder) : Prop where
  restart : o ≠ some .restart
  exchanging : o.any Holder.exchanging = false

/-- Nobody holds the lock. -/
theorem Bystander.none : Bystander none := ⟨by simp, rfl⟩

/-- A caller holds it that waits for READY. -/
theorem Bystander.waiting (c : CallId) (command : Command) (woken : Bool) :
    Bystander (some (.call c command (.waiting woken))) := ⟨by simp, rfl⟩

/-- Such holders may come and go, and callers may queue. -/
theorem Inv.relock {lock : FifoLock Holder Waiter} (hi : Inv prog f)
    (hold : lock.owner = f.lock.owner ∨ Bystander f.lock.owner ∧ Bystander lock.owner)
    (hcount : lock.waiters.count .restart = f.lock.waiters.count .restart) :
    Inv prog { f with lock } := by
  have hh := hi.held
  have hrestart : lock.owner = some .restart ↔ f.lock.owner = some .restart := by
    rcases hold with heq | ⟨h1, h2⟩
    · rw [heq]
    · exact ⟨fun hc => absurd hc h2.restart, fun hc => absurd hc h1.restart⟩
  have hquiet : lock.owner.any Holder.exchanging = f.lock.owner.any Holder.exchanging := by
    rcases hold with heq | ⟨h1, h2⟩
    · rw [heq]
    · rw [h1.exchanging, h2.exchanging]
  refine ⟨⟨?_, ?_, hh.startup, hh.order, hh.ready⟩, ?_, hi.accounted.congr rfl⟩
  · exact hh.holds.trans hrestart.symm
  · exact hcount.trans hh.queued
  · cases hi.serial with
    | idle inactive hq hex hin hready => exact .idle inactive (hquiet.trans hq) hex hin hready
    | bringUp w hactive hother hq hd =>
        exact .bringUp w hactive hother (hquiet.trans hq) (hd.congr (by rfl))
    | caller c command k tag out ho inactive hready hchild hin hx =>
        refine .caller c command k tag out ?_ inactive hready hchild hin (hx.congr (by rfl))
        rcases hold with heq | ⟨h1, _⟩
        · exact heq.trans ho
        · have := h1.exchanging
          rw [ho] at this
          exact absurd this (by simp [Holder.exchanging])

/-- A call comes to its end, and the lock is handed on. -/
theorem Inv.endCall {c : CallId} {result : Result} {loss : Option Loss} (hi : Inv prog f)
    (hold : Bystander f.lock.owner) : Inv prog (f.endCall c result loss).1 :=
  hi.relock (Or.inr ⟨hold, .none⟩) rfl

/-- A caller starts its exchange on an empty pipe. -/
theorem Inv.exchange {c : CallId} {command : Command} (hi : Inv prog f)
    (hold : Bystander f.lock.owner) (hready : f.state = .ready) :
    Inv prog (f.exchange c command).1 := by
  have hh := hi.held
  unfold Flight.exchange
  split
  · exact hi.endCall hold
  · rename_i k hk
    have hrestart : (f.tasks .restart).active = false := by
      rw [← Bool.not_eq_true, hh.holds]
      exact hold.restart
    have hidle : f.executor = [] ∧ f.inFlight = 0 ∧ Quiet (f.children k) := by
      cases hi.serial with
      | idle _ _ hex hin hq => exact ⟨hex, hin, hq hready k hk⟩
      | bringUp w hactive _ _ _ =>
          cases w with
          | startup =>
              rw [hh.ready hready] at hactive
              exact absurd hactive (by simp [BringUp.active])
          | restart => exact absurd hactive (by simp [hrestart])
      | caller _ _ _ _ _ ho _ _ _ _ _ =>
          have := hold.exchanging
          rw [ho] at this
          exact absurd this (by simp [Holder.exchanging])
    obtain ⟨hex, hin, hq⟩ := hidle
    refine ⟨⟨?_, hh.queued, hh.startup, hh.order, hh.ready⟩, ?_, ?_⟩
    · show (f.tasks .restart).active = true ↔ _
      rw [hrestart]
      simp
    · refine .caller c command k f.nextTag none rfl ?_ hready hk ?_ (Or.inl ⟨?_, hq⟩)
      · intro h
        rcases h with _ | _
        · show (f.tasks .startup).active = false
          rw [hh.ready hready]; rfl
        · exact hrestart
      · simp [startExchange, hin]
      · simp [startExchange, submit, hex]
    · exact (hi.accounted.executor [.exchange (.call c) k f.nextTag command]
        (by rw [hex]; simp) (by simp)).congr (by simp [startExchange, submit, hex])

/-- A caller that has just got the lock sends its command, waits, or is turned away. -/
theorem Inv.underLock {c : CallId} {command : Command} (hi : Inv prog f)
    (hold : Bystander f.lock.owner) : Inv prog (f.underLock c command).1 := by
  unfold Flight.underLock
  split
  · rename_i hready
    exact hi.exchange hold hready
  split
  · exact hi.relock (Or.inr ⟨hold, .waiting ..⟩) rfl
  · exact hi.endCall hold

/-- **A caller comes in.** -/
theorem call_inv {c : CallId} {command : Command} (hi : Inv prog f) :
    Inv prog (f.call c command).1 := by
  unfold call
  split
  · rename_i hfree
    refine hi.underLock ?_
    rw [(FifoLock.uncontended_iff.mp hfree).1]
    exact .none
  · exact hi.relock (Or.inl rfl) (by simp)

/-- When the restart's turn at the lock comes, its task is the one that queued. -/
theorem Held.restart_queued {lock : FifoLock Holder Waiter} (hh : Held f)
    (hnext : f.lock.next? = some (.restart, lock)) : f.tasks .restart = .queued := by
  obtain ⟨_, hwaiters, _⟩ := FifoLock.next?_eq_some.mp hnext
  have hq := hh.queued
  rw [hwaiters, List.count_cons_self] at hq
  by_contra hc
  rw [if_neg hc] at hq
  exact absurd hq (by simp)

/-- **The lock goes to whoever waited longest**, a caller or the restart. -/
theorem takeLock_inv {e : Effects} (hi : Inv prog f) (hone : AtMostOneBringUp f')
    (h : f.takeLock cfg = some (f', e)) : Inv prog f' := by
  have hh := hi.held
  cases takeLock_locked h with
  | call c command lock hnext =>
      obtain ⟨howner, hwaiters, howner'⟩ := FifoLock.next?_eq_some.mp hnext
      have hfree : Bystander f.lock.owner := by rw [howner]; exact .none
      have hfree' : Bystander lock.owner := by rw [howner']; exact .none
      refine Inv.underLock (f := { f with lock }) (hi.relock (Or.inr ⟨hfree, hfree'⟩) ?_) hfree'
      rw [hwaiters]
      simp
  | restart lock hnext =>
      obtain ⟨howner, hwaiters, _⟩ := FifoLock.next?_eq_some.mp hnext
      have hqueued := hh.restart_queued hnext
      have hq := hh.queued
      rw [hwaiters, List.count_cons_self, if_pos hqueued] at hq
      refine hi.enterRestart (by rw [hqueued]; rfl) ?_ howner rfl (by simpa using hq) hone
      intro hc
      rcases hh.order hc with ho | ho <;> rw [hqueued] at ho <;> exact absurd ho (by simp)

/-- The child may be signalled at any time. -/
theorem Inv.killChild (hi : Inv prog f) : Inv prog (killChild f) := by
  unfold Flight.killChild
  split
  · exact hi
  · rename_i k _
    cases halive : (f.children k).alive with
    | true => exact hi.childStep (.die halive)
    | false =>
        have hself : f.setChild k { f.children k with alive := false } = f := by
          rw [← halive]
          unfold setChild
          rw [update_eq_self]
        rw [hself]
        exact hi

/-- The records of a flight are not part of its invariant. -/
theorem Inv.books {g : Flight κ} (hi : Inv prog f)
    (hfront : (g.state, g.lock, g.tasks, g.inFlight) = (f.state, f.lock, f.tasks, f.inFlight))
    (hback : (g.executor, g.child, g.spawns, g.children, g.written) =
      (f.executor, f.child, f.spawns, f.children, f.written)) : Inv prog g := by
  simp only [Prod.mk.injEq] at hfront hback
  obtain ⟨hstate, hlock, htasks, hinFlight⟩ := hfront
  obtain ⟨hexecutor, hchild, hspawns, hchildren, hwritten⟩ := hback
  refine ⟨hi.held.congr (by rw [hstate, hlock, htasks]), ?_,
    hi.accounted.congr (by rw [hexecutor, hchild, hspawns, hchildren])⟩
  cases hi.serial with
  | idle inactive hq hex hin hready =>
      refine .idle ?_ ?_ ?_ ?_ ?_
      · rw [htasks]; exact inactive
      · rw [exchanging, hlock]; exact hq
      · rw [hexecutor]; exact hex
      · rw [hinFlight]; exact hin
      · rw [hstate, hchild, hchildren]; exact hready
  | bringUp w hactive hother hq hd =>
      refine .bringUp w ?_ ?_ ?_ ?_
      · rw [htasks]; exact hactive
      · rw [htasks]; exact hother
      · rw [exchanging, hlock]; exact hq
      · rw [htasks]; exact hd.congr (by rw [hexecutor, hinFlight, hchild, hchildren, hwritten])
  | caller c command k tag out ho inactive hready hchild' hin hx =>
      refine .caller c command k tag out ?_ ?_ ?_ ?_ ?_
        (hx.congr (by rw [hexecutor, hchildren, hwritten]))
      · rw [hlock]; exact ho
      · rw [htasks]; exact inactive
      · rw [hstate]; exact hready
      · rw [hchild]; exact hchild'
      · rw [hinFlight]; exact hin

/-- A restart may be scheduled whenever no caller is on the thread. -/
theorem Inv.startRestart (hi : Inv prog f) (hquiet : f.exchanging = false) :
    Inv prog (startRestart f) := by
  have hh := hi.held
  unfold Flight.startRestart
  split
  · exact hi
  dsimp only
  -- The task is scheduled unless there is one; either way it is not active yet.
  have hleave : Inv prog { f with state := .restarting, readyEvent := false } := by
    refine ⟨⟨hh.holds, hh.queued, hh.startup, hh.order, fun hc => absurd hc (by simp)⟩, ?_,
      hi.accounted.congr rfl⟩
    cases hi.serial with
    | idle inactive hq hex hin _ => exact .idle inactive hq hex hin fun hc => absurd hc (by simp)
    | bringUp w hactive hother hq hd => exact .bringUp w hactive hother hq (hd.congr (by rfl))
    | caller c command k tag out ho _ _ _ _ _ =>
        have htrue : f.exchanging = true := exchanging_eq_true.mpr ⟨c, command, k, tag, out, ho⟩
        exact absurd (htrue.symm.trans hquiet) (by simp)
  split
  · rename_i habsent
    have hinactive : (f.tasks .restart).active = false := by rw [habsent]; rfl
    refine ⟨⟨?_, ?_, hh.startup, fun _ => Or.inr rfl, fun hc => absurd hc (by simp [setTask])⟩, ?_,
      hleave.accounted.congr rfl⟩
    · show BringUp.scheduled.active = true ↔ f.lock.owner = some .restart
      rw [← hh.holds, hinactive]
      rfl
    · have hq := hh.queued
      rw [habsent] at hq
      simpa [setTask] using hq
    · cases hleave.serial with
      | idle inactive hq hex hin _ =>
          refine .idle ?_ hq hex hin fun hc => absurd hc (by simp [setTask])
          intro h
          rcases h with _ | _
          · exact inactive .startup
          · rfl
      | bringUp w hactive hother hq hd =>
          cases w with
          | startup => exact .bringUp .startup hactive rfl hq (hd.congr (by rfl))
          | restart => exact absurd hactive (by simp [hinactive])
      | caller _ _ _ _ _ _ _ hc _ _ _ => exact absurd hc (by simp)
  · exact hleave

/-- **An operator's restart keeps the invariant.** -/
theorem requestRestart_inv {reason : String} (hi : Inv prog f) :
    Inv prog (f.requestRestart reason).1 := by
  have hnotReady : f.state ≠ .ready ∨ f.inFlight = 0 → f.exchanging = false := by
    intro hor
    cases hi.serial with
    | idle _ hq _ _ _ => exact hq
    | bringUp _ _ _ hq _ => exact hq
    | caller _ _ _ _ _ _ _ hready _ hin _ =>
        rcases hor with hc | hc
        · exact absurd hready hc
        · exact absurd (hc.symm.trans hin) (by simp)
  unfold requestRestart
  split
  · rename_i hdegraded
    refine Inv.startRestart (hi.books rfl rfl) (hnotReady (Or.inl ?_))
    rw [hdegraded]
    simp
  split
  · rename_i hin
    refine Inv.startRestart (hi.killChild.books rfl rfl) ?_
    have hlock : (killChild f).lock = f.lock := by
      unfold Flight.killChild
      split <;> rfl
    show (killChild f).lock.owner.any _ = false
    rw [hlock]
    exact hnotReady (Or.inr hin)
  · exact hi.killChild

/-- A caller that gets its answer leaves an empty pipe, one that lost its child leaves
the flight RESTARTING. -/
theorem afterExchange_inv {c : CallId} {command : Command} {k : ChildId} {tag : Tag} {out : Outcome}
    (hi : Inv prog f)
    (howner : f.lock.owner = some (.call c command (.exchanging k tag (some out)))) :
    Inv prog (f.afterExchange c command out).1 := by
  have hh := hi.held
  obtain ⟨inactive, hready, hchild, hin, hx⟩ := hi.serial.served howner
  have hrestart : (f.tasks .restart).active = false := inactive .restart
  have hin0 : f.inFlight - 1 = 0 := by rw [hin]
  cases out with
  | lost reason =>
      have hex : f.executor = [] := hx
      -- Seen with the lock already released, the restart is scheduled by nobody on the thread.
      have hfree : Inv prog
          { f with state := .restarting, inFlight := f.inFlight - 1, lock := f.lock.release } := by
        refine ⟨⟨?_, hh.queued, hh.startup, hh.order, fun hc => absurd hc (by simp)⟩,
          .idle inactive rfl hex hin0 fun hc => absurd hc (by simp), hi.accounted.congr rfl⟩
        show (f.tasks .restart).active = true ↔ _
        rw [hrestart]
        simp
      have hgo := hfree.startRestart rfl
      refine hgo.books ?_ ?_ <;>
        simp only [Flight.afterExchange, Flight.endCall, Flight.startRestart, noteLoss, hready] <;>
        simp only [reduceCtorEq, if_false] <;> split <;> rfl
  | reply s =>
      obtain ⟨hex, _, hq, _⟩ := hx
      have hfree : Inv prog { f with inFlight := f.inFlight - 1, lock := f.lock.release } := by
        refine ⟨⟨?_, hh.queued, hh.startup, hh.order, hh.ready⟩,
          .idle inactive rfl hex hin0 fun _ j hj => ?_, hi.accounted.congr rfl⟩
        · show (f.tasks .restart).active = true ↔ _
          rw [hrestart]
          simp
        · obtain rfl : k = j := Option.some.inj (hchild.symm.trans hj)
          exact hq
      simp only [Flight.afterExchange]
      split
      · split
        · exact hfree.books rfl rfl
        · exact hfree.books rfl rfl
      · exact hfree.books rfl rfl

/-- **A caller goes on**, with its answer or because the flight has come up. -/
theorem resumeCaller_inv {e : Effects} (hi : Inv prog f) (h : f.resumeCaller = some (f', e)) :
    Inv prog f' := by
  cases resumeCaller_wentOn h with
  | exchanges c command howner hready =>
      refine hi.exchange ?_ hready
      rw [howner]
      exact .waiting ..
  | refused c command howner hready =>
      refine hi.endCall ?_
      rw [howner]
      exact .waiting ..
  | answered c command k tag out howner => exact afterExchange_inv hi howner

/-- **A caller has waited too long** for the flight to come up. -/
theorem startupTimeout_inv {e : Effects} (hi : Inv prog f) (h : f.startupTimeout = some (f', e)) :
    Inv prog f' := by
  cases startupTimeout_timedOut h with
  | turnedAway c command woken howner =>
      refine hi.endCall ?_
      rw [howner]
      exact .waiting ..

/-! ### Every run

The step lemmas are put together once, by who moves; the run lemma is the induction over the run.
Both ask that at most one `_bring_up` be active after the step, which the code does not see to by
itself.
-/

/-- At first there is a startup task, and nothing else. -/
theorem started_inv : Inv prog (Flight.started prog) := by
  refine ⟨⟨?_, ?_, ?_, ?_, ?_⟩, .idle ?_ rfl rfl rfl ?_, ⟨?_, ?_, ?_, ?_, ?_⟩⟩
  · simp [Flight.started, BringUp.active, FifoLock.free]
  · rfl
  · simp [Flight.started]
  · exact fun _ => Or.inl rfl
  · simp [Flight.started]
  · rintro (_ | _) <;> rfl
  · intro _ k hk
    exact absurd hk (by simp [Flight.started])
  · exact fun _ _ => rfl
  · intro k hk
    exact absurd hk (by simp [Flight.started])
  · intro w k hk
    exact absurd hk (by simp [Flight.started])
  · intro k hk
    exact absurd hk (by simp [Flight.started])
  · exact fun _ _ => rfl

/-- **One step, whatever it is, keeps the invariant as long as at most one `_bring_up`
is active after it.** -/
theorem next_inv {a : FlightAction σ} {e : Effects} (hi : Inv prog f) (hone : AtMostOneBringUp f')
    (h : f.next cfg prog a = some (f', e)) : Inv prog f' := by
  cases ha : a.child? with
  | some k =>
      obtain ⟨_, c', hs, rfl⟩ := next_child ha h
      exact hi.childStep hs
  | none =>
      cases a with
      | call c command =>
          obtain rfl := congrArg Prod.fst (Option.some.inj h)
          exact call_inv hi
      | takeLock => exact takeLock_inv hi hone h
      | resumeCaller => exact resumeCaller_inv hi h
      | startupTimeout => exact startupTimeout_inv hi h
      | resumeBringUp w => exact resumeBringUp_inv hi hone h
      | requestRestart reason =>
          obtain rfl := congrArg Prod.fst (Option.some.inj h)
          exact requestRestart_inv hi
      | runExecutor fails => exact runExecutor_inv hi (next_runExecutor h).1
      | boot k b | receive k | answer k world | finishDeferred k | die k =>
          exact absurd ha (by simp [FlightAction.child?])

/-- Runs in which at most one `_bring_up` is active at a time. -/
def oneBringUp (_ : Flight κ) (_ : FlightAction σ) (f' : Flight κ) : Prop := AtMostOneBringUp f'

/-- **Every run** in which at most one `_bring_up` is active at a time. -/
theorem reach_inv (h : (flightSystem cfg prog).Reach oneBringUp f) : Inv prog f := by
  refine h.invariant ?_ ?_
  · intro _ heq
    subst heq
    exact started_inv
  · intro f a f' hi hone hc
    obtain ⟨e, hstep⟩ := hc
    exact next_inv hi hone hstep

end Flight

end DonutServer
