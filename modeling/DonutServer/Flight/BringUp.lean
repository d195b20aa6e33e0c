/-
A bring-up that is left alone always comes to an end.

`_bring_up` counts its attempts, and every hello sets the count back to zero, so the count
alone does not bound its loop.  What does is the count together with `_loss_provoked_by`.
A replay is owed only while the last loss was not a prepare's, and a child lost during its
replay leaves behind that it was.  From then on nothing is owed until READY: a later loss
before the hello keeps what the last one left, and the next hello is the last.  So the loop
is gone through with at most two counts, one before a replay and one after it.

The runs here are those of one bring-up with nothing else going on: its own segments, the
reader thread's, and whatever the children do in between.  A child may say anything at any
time, and die at any time.  That sleeps end and that the hello has a deadline is fairness: a
step that can be taken is taken, sooner or later.
-/
import DonutServer.Flight.Lifecycle
import DonutServer.Lib.Fair

namespace DonutServer

open Function

variable {κ σ : Type}

/-! ### Running alone

A bring-up that runs alone has the flight to itself: nobody calls, and no operator interferes.
What is left is the task, the thread and the children, and of the children it is only asked that
they do not unsay what they said.  Fairness is a property of the whole run, so a run is a function
of time here and not a path.
-/

/-- What can happen while a bring-up runs alone: its next segment, the thread's next one,
and the children's doings. -/
inductive LoneAction (κ : Type)
  | resume
  | thread (fails : Option String)
  | children (c : ChildId → Child κ)

/-- The front-end's own steps, as against the children's. -/
inductive LoneAction.Own : LoneAction κ → Prop
  | resume : Own .resume
  | thread (fails : Option String) : Own (.thread fails)

/-- What happens on a flight when it is `w`'s bring-up that runs, the thread or a child. -/
inductive FlightAction.Alone (w : BringUpTask) : FlightAction σ → Prop
  | resumeBringUp : Alone w (.resumeBringUp w)
  | runExecutor (fails : Option String) : Alone w (.runExecutor fails)
  | boot (k : ChildId) (b : Boot) : Alone w (.boot k b)
  | receive (k : ChildId) : Alone w (.receive k)
  | answer (k : ChildId) (world : σ) : Alone w (.answer k world)
  | finishDeferred (k : ChildId) : Alone w (.finishDeferred k)
  | die (k : ChildId) : Alone w (.die k)

namespace Flight

variable {cfg : CoordSettings} {prog : ChildProgram κ σ} {w : BringUpTask} {f f' : Flight κ}

/-- What children may do: what they have said stays said, and the dead stay dead. -/
def Stirs (f : Flight κ) (c : ChildId → Child κ) : Prop :=
  ∀ k, (f.children k).outbox <+: (c k).outbox ∧
    ((f.children k).alive = false → (c k).alive = false)

inductive LoneStep (cfg : CoordSettings) (prog : ChildProgram κ σ) (w : BringUpTask) :
    Flight κ → LoneAction κ → Flight κ → Prop
  | resume {f f' : Flight κ} {e : Effects} (h : f.resumeBringUp cfg prog w = some (f', e)) :
      LoneStep cfg prog w f .resume f'
  | thread {f f' : Flight κ} {fails : Option String} (h : f.runExecutor fails = some f') :
      LoneStep cfg prog w f (.thread fails) f'
  | children {f : Flight κ} {c : ChildId → Child κ} (h : f.Stirs c) :
      LoneStep cfg prog w f (.children c) { f with children := c }

/-- One `_bring_up`, called in `f₀`, running alone. -/
def loneSystem (cfg : CoordSettings) (prog : ChildProgram κ σ) (w : BringUpTask)
    (f₀ : Flight κ) : System (Flight κ) (LoneAction κ) where
  init f := f = bringUpLoop cfg w f₀
  step := LoneStep cfg prog w

/-- The thread waits, with no deadline, for what child `k` says next. -/
def AwaitsReply (k : ChildId) (f : Flight κ) : Prop :=
  ∃ o, f.executor.head? = some (.awaitReply o k false)

/-- Child `k` has said something that was not read yet, or is dead. -/
def Answered (k : ChildId) (f : Flight κ) : Prop :=
  (f.children k).outbox ≠ [] ∨ (f.children k).alive = false

/-- A run of `_bring_up` alone, in which every command is answered in the end or its child
dies. -/
structure LoneRun (cfg : CoordSettings) (prog : ChildProgram κ σ) (w : BringUpTask)
    (f₀ : Flight κ) extends FairRun (loneSystem cfg prog w f₀) LoneAction.Own where
  called : (loneSystem cfg prog w f₀).init (state 0)
  answered : ∀ n k, (state n).AwaitsReply k →
    ∃ m, n ≤ m ∧ ((state m).AwaitsReply k → (state m).Answered k)

/-- `_bring_up` has returned, and left the server up or given up on. -/
def Settled (w : BringUpTask) (f : Flight κ) : Prop :=
  f.tasks w = .absent ∧ (f.state = .ready ∨ f.state = .degraded)

/-! ### Steps of the flight

Nothing is modelled twice: a step of these runs is a step of the flight that leaves the bring-up
alone.  What a child does is read more loosely, so that the result holds of children of any make.
-/

/-- A child that says more, or dies, does what children may do. -/
theorem setChild_lone {k : ChildId} {c : Child κ} {e : Effects}
    (h : quietly (some (f.setChild k c)) = some (f', e))
    (hsaid : (f.children k).outbox <+: c.outbox)
    (hdead : (f.children k).alive = false → c.alive = false) :
    ∃ b, LoneStep cfg prog w f b f' := by
  obtain rfl := congrArg Prod.fst (Option.some.inj h)
  refine ⟨.children (update f.children k c), .children fun j => ?_⟩
  by_cases hj : j = k
  · subst hj
    rw [update_self]
    exact ⟨hsaid, hdead⟩
  · rw [update_of_ne hj]
    exact ⟨List.prefix_refl _, id⟩

/-- **Runs of the flight are runs of these.**  A step that leaves the bring-up alone is one of
its steps, or something its children may do. -/
theorem next_lone {a : FlightAction σ} {e : Effects} (ha : a.Alone w)
    (h : f.next cfg prog a = some (f', e)) : ∃ b, LoneStep cfg prog w f b f' := by
  cases ha with
  | resumeBringUp => exact ⟨.resume, .resume h⟩
  | runExecutor fails =>
      obtain ⟨g, hg, heq⟩ := Option.map_eq_some_iff.mp h
      obtain rfl := congrArg Prod.fst heq
      exact ⟨.thread fails, .thread hg⟩
  | boot k b =>
      cases b with
      | hello =>
          simp only [Flight.next, boot] at h
          split at h
          · exact setChild_lone h (List.prefix_append _ _) id
          · exact absurd h (by simp [quietly])
      | fatal error =>
          simp only [Flight.next, boot] at h
          split at h
          · exact setChild_lone h (List.prefix_append _ _) id
          · exact absurd h (by simp [quietly])
  | receive k =>
      simp only [Flight.next, receive] at h
      split at h
      · split at h
        · exact setChild_lone h (List.prefix_refl _) id
        · exact absurd h (by simp [quietly])
      · exact absurd h (by simp [quietly])
  | answer k world =>
      simp only [Flight.next, answer] at h
      split at h
      · split at h
        · exact setChild_lone h (List.prefix_append _ _) id
        · exact absurd h (by simp [quietly])
      · exact absurd h (by simp [quietly])
  | finishDeferred k =>
      simp only [Flight.next, finishDeferred] at h
      split at h
      · exact setChild_lone h (List.prefix_refl _) id
      · exact absurd h (by simp [quietly])
  | die k =>
      simp only [Flight.next, die] at h
      split at h
      · exact setChild_lone h (List.prefix_refl _) (fun _ => rfl)
      · exact absurd h (by simp [quietly])

/-! ### Where a bring-up stands

What it is suspended at and what the thread has to do go together; the number beside them
is how many own steps are left before the next child is spawned, or before the end. -/

/-- What a bring-up is on: a reap, before a spawn or after a fatal first message, a hello,
or a replay. -/
inductive Leg
  | reaping (fatal : Option String)
  | greeting
  | replaying

inductive At (w : BringUpTask) : Leg → BringUp → List Job → Nat → Prop
  | backoff : At w (.reaping none) .backoff [] 4
  | reap (fatal : Option String) :
      At w (.reaping fatal) (.reaping fatal false) [.reap w] 3
  | taken (fatal : Option String) (k : Option ChildId) :
      At w (.reaping fatal) (.reaping fatal false) [.reaping w k] 2
  | reaped (fatal : Option String) : At w (.reaping fatal) (.reaping fatal true) [] 1
  | waiting (k : ChildId) : At w .greeting (.hello k none) [.awaitReply (.task w) k true] 9
  | heard (k : ChildId) (out : Outcome) : At w .greeting (.hello k (some out)) [] 8
  | asked (k : ChildId) (tag : Tag) (args : PrepareCommand) (command : Command) :
      At w .replaying (.repriming k tag args none) [.exchange (.task w) k tag command] 7
  | written (k : ChildId) (tag : Tag) (args : PrepareCommand) :
      At w .replaying (.repriming k tag args none) [.awaitReply (.task w) k false] 6
  | back (k : ChildId) (tag : Tag) (args : PrepareCommand) (out : Outcome) :
      At w .replaying (.repriming k tag args (some out)) [] 5

/-- The attempts that the next hello will give back, if a replay fails after it. -/
def owed (cfg : CoordSettings) (f : Flight κ) : Nat :=
  if f.primedArgs = none ∨ f.lossProvokedBy = some "prepare" then 0 else cfg.maxRestartAttempts

/-- How often the loop can still be gone round. -/
def attemptsLeft (cfg : CoordSettings) (f : Flight κ) : Nat :=
  cfg.maxRestartAttempts - f.restartAttempts + f.owed cfg

/-- **Where a lone bring-up stands**: how many children it may still spawn, and how many
steps it may take before it does. -/
inductive Lone (cfg : CoordSettings) (w : BringUpTask) (f : Flight κ) : Nat → Nat → Prop
  | trying {n : Nat} (place : At w (.reaping none) (f.tasks w) f.executor n)
      (running : f.state ≠ .stopping) : Lone cfg w f (f.attemptsLeft cfg + 1) n
  | greeting {n : Nat} (place : At w .greeting (f.tasks w) f.executor n)
      (running : f.state ≠ .stopping) : Lone cfg w f (f.attemptsLeft cfg) n
  | replaying {n : Nat} (place : At w .replaying (f.tasks w) f.executor n)
      (running : f.state ≠ .stopping) : Lone cfg w f cfg.maxRestartAttempts n
  | cleaning (reason : String) {n : Nat}
      (place : At w (.reaping (some reason)) (f.tasks w) f.executor n)
      (degraded : f.state = .degraded) : Lone cfg w f 0 n
  | ended (settled : f.Settled w) (thread : f.executor = []) : Lone cfg w f 0 0

/-- It stands lower than `b` children and `n` steps, and will not spawn past `limit`. -/
def Below (cfg : CoordSettings) (w : BringUpTask) (limit b n : Nat) (f : Flight κ) : Prop :=
  ∃ b' n', Lone cfg w f b' n' ∧ 10 * b' + n' < 10 * b + n ∧ f.spawns + b' ≤ limit

variable {limit b n : Nat}

/-- What decides how long the loop goes on, and what it has spent. -/
def ledger (f : Flight κ) : CoordState × Nat × Option PrepareCommand × Option String × Nat :=
  (f.state, f.restartAttempts, f.primedArgs, f.lossProvokedBy, f.spawns)

theorem attemptsLeft_ledger (h : f'.ledger = f.ledger) :
    f'.attemptsLeft cfg = f.attemptsLeft cfg := by
  simp only [ledger, Prod.mk.injEq] at h
  obtain ⟨-, hattempts, hprimed, hprovoked, -⟩ := h
  simp only [attemptsLeft, owed, hattempts, hprimed, hprovoked]

theorem endBringUp_absent : (endBringUp w f).tasks w = .absent := by
  cases w with
  | startup => exact setTask_self ..
  | restart => exact setTask_self (f := f) .restart .absent

theorem endBringUp_books : ((endBringUp w f).executor, (endBringUp w f).spawns) =
    (f.executor, f.spawns) := by
  cases w <;> rfl

/-- The task returns. -/
theorem endBringUp_below (hstate : f.state = .ready ∨ f.state = .degraded)
    (hthread : f.executor = []) (hlt : 0 < 10 * b + n) (hlimit : f.spawns ≤ limit) :
    Below cfg w limit b n (endBringUp w f) := by
  obtain ⟨hexecutor, hspawns⟩ := Prod.mk.inj (endBringUp_books (w := w) (f := f))
  refine ⟨0, 0, .ended ⟨endBringUp_absent, ?_⟩ (hexecutor.trans hthread), hlt, by omega⟩
  rw [endBringUp_state]
  exact hstate

/-- One attempt more has been begun. -/
theorem attempt_below {g : Flight κ} {m : Nat}
    (hplace : At w (.reaping none) (g.tasks w) g.executor m) (hm : m ≤ 4)
    (hrun : f.state ≠ .stopping)
    (hmore : f.restartAttempts < cfg.maxRestartAttempts)
    (hledger : g.ledger = ledger { f with restartAttempts := f.restartAttempts + 1 })
    (hlt : 10 * f.attemptsLeft cfg + 4 < 10 * b + n)
    (hlimit : f.spawns + f.attemptsLeft cfg ≤ limit) : Below cfg w limit b n g := by
  have hleft : g.attemptsLeft cfg + 1 = f.attemptsLeft cfg := by
    rw [attemptsLeft_ledger hledger]
    show cfg.maxRestartAttempts - (f.restartAttempts + 1) + f.owed cfg + 1 =
      cfg.maxRestartAttempts - f.restartAttempts + f.owed cfg
    omega
  simp only [ledger, Prod.mk.injEq] at hledger
  obtain ⟨hstate, -, -, -, hspawns⟩ := hledger
  exact ⟨g.attemptsLeft cfg + 1, m, .trying hplace (hstate ▸ hrun), by omega, by omega⟩

/-- The task goes round its loop. -/
theorem bringUpLoop_below (hrun : f.state ≠ .stopping) (hthread : f.executor = [])
    (hlt : 10 * f.attemptsLeft cfg + 4 < 10 * b + n)
    (hlimit : f.spawns + f.attemptsLeft cfg ≤ limit) :
    Below cfg w limit b n (bringUpLoop cfg w f) := by
  unfold bringUpLoop
  rw [if_neg hrun]
  split
  · exact endBringUp_below (f := setReady { f with degradedReason := _, state := .degraded })
      (Or.inr rfl) hthread (by omega) (show f.spawns ≤ limit by omega)
  · rename_i hmore
    dsimp only
    split
    · refine attempt_below (m := 3) ?_ (by omega) hrun (by omega) rfl hlt hlimit
      rw [setTask_self]
      show At w _ _ (f.executor ++ [.reap w]) 3
      rw [hthread]
      exact .reap none
    · refine attempt_below (m := 4) ?_ (by omega) hrun (by omega) rfl hlt hlimit
      rw [setTask_self]
      show At w _ _ f.executor 4
      rw [hthread]
      exact .backoff

/-! ### The reader thread's steps

The thread can only bring the bring-up on within the leg it is on.  What it hands over is noted in
the task, and none of the books that decide how often the loop goes round is touched.
-/

theorem deliver_ledger {o : Client} {out : Outcome} : (deliver o out f).ledger = f.ledger := by
  unfold deliver
  repeat' split
  all_goals rfl

theorem deliverReaped_ledger : (deliverReaped w f).ledger = f.ledger := by
  unfold deliverReaped
  split <;> rfl

theorem runExecutor_ledger {fails : Option String} (h : f.runExecutor fails = some f') :
    f'.ledger = f.ledger := by
  cases runExecutor_executed h with
  | reap w rest hjob => rfl
  | reapedNone w rest hjob | reaped w k rest hjob => exact deliverReaped_ledger
  | unwritten o k tag command rest reason hjob hdead => exact deliver_ledger
  | written o k tag command rest hjob => rfl
  | lost o k timed rest reason hjob hmay => exact deliver_ledger
  | replied o k timed rest s more hjob hout => exact deliver_ledger

theorem deliver_greeting {k : ChildId} {out : Outcome} (htask : f.tasks w = .hello k none)
    (hthread : f.executor = []) :
    At w .greeting ((deliver (.task w) out f).tasks w) (deliver (.task w) out f).executor 8 := by
  have hd : deliver (.task w) out f = f.setTask w (.hello k (some out)) := by
    simp only [deliver, htask]
  rw [hd, setTask_self]
  show At w .greeting _ f.executor 8
  rw [hthread]
  exact .heard k out

theorem deliver_replaying {k : ChildId} {tag : Tag} {args : PrepareCommand} {out : Outcome}
    (htask : f.tasks w = .repriming k tag args none) (hthread : f.executor = []) :
    At w .replaying ((deliver (.task w) out f).tasks w) (deliver (.task w) out f).executor 5 := by
  have hd : deliver (.task w) out f = f.setTask w (.repriming k tag args (some out)) := by
    simp only [deliver, htask]
  rw [hd, setTask_self]
  show At w .replaying _ f.executor 5
  rw [hthread]
  exact .back k tag args out

theorem deliverReaped_reaped {fatal : Option String} (htask : f.tasks w = .reaping fatal false)
    (hthread : f.executor = []) :
    At w (.reaping fatal) ((deliverReaped w f).tasks w) (deliverReaped w f).executor 1 := by
  have hd : deliverReaped w f = f.setTask w (.reaping fatal true) := by
    simp only [deliverReaped, htask]
  rw [hd, setTask_self]
  show At w _ _ f.executor 1
  rw [hthread]
  exact .reaped fatal

/-- The thread brings the bring-up on, within what it is on. -/
theorem At.thread {leg : Leg} {fails : Option String} (h : At w leg (f.tasks w) f.executor n)
    (hrun : f.runExecutor fails = some f') :
    ∃ m, m < n ∧ At w leg (f'.tasks w) f'.executor m := by
  generalize htask : f.tasks w = task at h
  generalize hthread : f.executor = jobs at h
  cases h with
  | backoff | reaped | heard | back =>
      simp only [runExecutor, hthread] at hrun
      exact absurd hrun (by simp)
  | reap fatal =>
      simp only [runExecutor, hthread] at hrun
      obtain rfl := Option.some.inj hrun
      refine ⟨2, by omega, ?_⟩
      show At w _ (f.tasks w) [.reaping w f.child] 2
      rw [htask]
      exact .taken fatal f.child
  | taken fatal k =>
      simp only [runExecutor, hthread] at hrun
      obtain rfl := Option.some.inj hrun
      refine ⟨1, by omega, deliverReaped_reaped ?_ rfl⟩
      cases k with
      | none => exact htask
      | some k => exact htask
  | waiting k =>
      simp only [runExecutor, hthread] at hrun
      refine ⟨8, by omega, ?_⟩
      split at hrun
      · split at hrun
        · exact absurd hrun (by simp)
        · obtain rfl := Option.some.inj hrun
          exact deliver_greeting htask rfl
      · split at hrun
        · exact absurd hrun (by simp)
        · obtain rfl := Option.some.inj hrun
          exact deliver_greeting htask rfl
  | asked k tag args command =>
      simp only [runExecutor, hthread] at hrun
      split at hrun
      · split at hrun
        · exact absurd hrun (by simp)
        · obtain rfl := Option.some.inj hrun
          exact ⟨5, by omega, deliver_replaying htask rfl⟩
      · obtain rfl := Option.some.inj hrun
        refine ⟨6, by omega, ?_⟩
        show At w .replaying (f.tasks w) [.awaitReply (.task w) k false] 6
        rw [htask]
        exact .written k tag args
  | written k tag args =>
      simp only [runExecutor, hthread] at hrun
      refine ⟨5, by omega, ?_⟩
      split at hrun
      · split at hrun
        · exact absurd hrun (by simp)
        · obtain rfl := Option.some.inj hrun
          exact deliver_replaying htask rfl
      · split at hrun
        · exact absurd hrun (by simp)
        · obtain rfl := Option.some.inj hrun
          exact deliver_replaying htask rfl

/-- **A step of the thread.** -/
theorem runExecutor_below {fails : Option String} (hl : Lone cfg w f b n)
    (hrun : f.runExecutor fails = some f') (hlimit : f.spawns + b ≤ limit) :
    Below cfg w limit b n f' := by
  have hledger := runExecutor_ledger hrun
  have hleft : f'.attemptsLeft cfg = f.attemptsLeft cfg := attemptsLeft_ledger hledger
  simp only [ledger, Prod.mk.injEq] at hledger
  obtain ⟨hstate, -, -, -, hspawns⟩ := hledger
  cases hl with
  | trying place running =>
      obtain ⟨m, hm, hplace⟩ := place.thread hrun
      exact ⟨_, m, .trying hplace (hstate ▸ running), by omega, by omega⟩
  | greeting place running =>
      obtain ⟨m, hm, hplace⟩ := place.thread hrun
      exact ⟨_, m, .greeting hplace (hstate ▸ running), by omega, by omega⟩
  | replaying place running =>
      obtain ⟨m, hm, hplace⟩ := place.thread hrun
      exact ⟨_, m, .replaying hplace (hstate ▸ running), by omega, by omega⟩
  | cleaning reason place degraded =>
      obtain ⟨m, hm, hplace⟩ := place.thread hrun
      exact ⟨_, m, .cleaning reason hplace (hstate.trans degraded), by omega, by omega⟩
  | ended settled thread =>
      simp only [runExecutor, thread] at hrun
      exact absurd hrun (by simp)

/-! ### The bring-up's own steps

Here the books are spent.  A child that is lost before its hello costs an attempt and gives nothing
back; a hello gives the attempts back, but then either nothing is owed, and the loop is over, or a
replay is, and after that, whatever comes of it, nothing is owed any more.  So the number of
children to come goes down at every turn of the loop.
-/

/-- The task returns with the server up. -/
theorem readyUp_below (hthread : f.executor = []) (hlt : 0 < 10 * b + n)
    (hlimit : f.spawns ≤ limit) : Below cfg w limit b n (readyUp w f) :=
  endBringUp_below (f := setReady { f with lossProvokedBy := none, state := .ready })
    (Or.inl rfl) hthread hlt hlimit

/-- A child is lost, and the loop gone round. -/
theorem retry_below {reason : String} {provokedBy : Option String} (hrun : f.state ≠ .stopping)
    (hthread : f.executor = [])
    (hlt : 10 * (f.noteLoss reason provokedBy).attemptsLeft cfg + 4 < 10 * b + n)
    (hlimit : f.spawns + (f.noteLoss reason provokedBy).attemptsLeft cfg ≤ limit) :
    Below cfg w limit b n (retry cfg w reason provokedBy f).1 :=
  bringUpLoop_below (f := f.noteLoss reason provokedBy) hrun hthread hlt hlimit

/-- A new child is spawned: one of those the loop could. -/
theorem spawnChild_below (hrun : f.state ≠ .stopping) (hthread : f.executor = [])
    (hlimit : f.spawns + (f.attemptsLeft cfg + 1) ≤ limit) :
    Below cfg w limit (f.attemptsLeft cfg + 1) n (spawnChild prog w f) := by
  refine ⟨f.attemptsLeft cfg, 9, .greeting (n := 9) ?_ hrun, by omega, ?_⟩
  · show At w .greeting (update f.tasks w (.hello f.spawns none) w)
      (f.executor ++ [.awaitReply (.task w) f.spawns true]) 9
    rw [update_self, hthread]
    exact .waiting f.spawns
  · show f.spawns + 1 + f.attemptsLeft cfg ≤ limit
    omega

/-- After a hello there is at most one replay, and nothing to do but wait for it. -/
theorem reprime_below (hrun : f.state ≠ .stopping) (hthread : f.executor = [])
    (hlt : 10 * f.owed cfg + 7 < 10 * b + n) (hlimit : f.spawns + f.owed cfg ≤ limit) :
    Below cfg w limit b n (reprime w f) := by
  unfold reprime
  split
  · exact readyUp_below hthread (by omega) (by omega)
  · rename_i args hprimed
    split
    · exact readyUp_below hthread (by omega) (by omega)
    · rename_i hprovoked
      have howed : f.owed cfg = cfg.maxRestartAttempts := by
        unfold owed
        rw [if_neg (by simp [hprimed, hprovoked])]
      split
      · exact readyUp_below (f := { f with reprimeError := some "no coordinator process" }) hthread
          (by omega) (show f.spawns ≤ limit by omega)
      · rename_i k hchild
        refine ⟨cfg.maxRestartAttempts, 7, .replaying (n := 7) ?_ hrun, by omega, ?_⟩
        · rw [setTask_self]
          show At w .replaying _ (f.executor ++ [.exchange (.task w) k f.nextTag (.prepare args)]) 7
          rw [hthread]
          exact .asked k f.nextTag args _
        · show f.spawns + cfg.maxRestartAttempts ≤ limit
          omega

theorem owed_le : f.owed cfg ≤ cfg.maxRestartAttempts := by
  unfold owed
  split
  · exact Nat.zero_le _
  · exact Nat.le_refl _

/-- A loss before the hello leaves what was owed as it was. -/
theorem retry_hello_below {reason : String} (hrun : f.state ≠ .stopping) (hthread : f.executor = [])
    (hlimit : f.spawns + f.attemptsLeft cfg ≤ limit) :
    Below cfg w limit (f.attemptsLeft cfg) 8 (retry cfg w reason f.lossProvokedBy f).1 :=
  retry_below hrun hthread
    (show 10 * f.attemptsLeft cfg + 4 < 10 * f.attemptsLeft cfg + 8 by omega) hlimit

/-- A loss to a prepare leaves nothing owed. -/
theorem noteLoss_prepare {reason : String} :
    (f.noteLoss reason (some "prepare")).attemptsLeft cfg ≤ cfg.maxRestartAttempts := by
  have howed : (f.noteLoss reason (some "prepare")).owed cfg = 0 := if_pos (Or.inr rfl)
  unfold attemptsLeft
  rw [howed]
  omega

theorem afterHello_below {out : Outcome} (hrun : f.state ≠ .stopping) (hthread : f.executor = [])
    (hlimit : f.spawns + f.attemptsLeft cfg ≤ limit) :
    Below cfg w limit (f.attemptsLeft cfg) 8 (afterHello cfg w out f).1 := by
  have howed : f.owed cfg ≤ f.attemptsLeft cfg := Nat.le_add_left ..
  unfold afterHello
  split
  · exact retry_hello_below (f := { f with inFlight := f.inFlight - 1 }) hrun hthread hlimit
  · dsimp only
    split
    · rename_i reason _
      refine ⟨0, 3, .cleaning reason ?_ rfl, by omega, ?_⟩
      · rw [setTask_self]
        show At w _ _ (f.executor ++ [.reap w]) 3
        rw [hthread]
        exact .reap (some reason)
      · show f.spawns + 0 ≤ limit
        omega
    · refine reprime_below (f := { f with
        inFlight := f.inFlight - 1, generation := f.generation + 1, restartAttempts := 0 })
        hrun hthread ?_ ?_
      · show 10 * f.owed cfg + 7 < _
        omega
      · show f.spawns + f.owed cfg ≤ limit
        omega
    · exact retry_hello_below (f := { f with inFlight := f.inFlight - 1 }) hrun hthread hlimit

theorem afterReprime_below {args : PrepareCommand} {out : Outcome} (hrun : f.state ≠ .stopping)
    (hthread : f.executor = []) (hlimit : f.spawns + cfg.maxRestartAttempts ≤ limit) :
    Below cfg w limit cfg.maxRestartAttempts 5 (afterReprime cfg w args out f).1 := by
  unfold afterReprime
  split
  · rename_i reason
    have hle : attemptsLeft cfg
        (noteLoss reason (some "prepare") { f with inFlight := f.inFlight - 1 }) ≤
          cfg.maxRestartAttempts := noteLoss_prepare
    refine retry_below (f := { f with inFlight := f.inFlight - 1 }) hrun hthread (by omega) ?_
    show f.spawns + _ ≤ limit
    omega
  · dsimp only
    split
    · exact readyUp_below
        (f := notePrepared args _ (handOver _ { f with inFlight := f.inFlight - 1 })) hthread
        (by omega) (show f.spawns ≤ limit by omega)
    · exact readyUp_below (f := { handOver _ { f with inFlight := f.inFlight - 1 } with
        primedArgs := none, reprimeError := _ }) hthread (by omega) (show f.spawns ≤ limit by omega)

/-- **A step of the bring-up.** -/
theorem resumeBringUp_below {e : Effects} (hl : Lone cfg w f b n)
    (h : f.resumeBringUp cfg prog w = some (f', e)) (hlimit : f.spawns + b ≤ limit) :
    Below cfg w limit b n f' := by
  cases hl with
  | trying place running =>
      generalize htask : f.tasks w = task at place
      generalize hthread : f.executor = jobs at place
      cases place with
      | backoff =>
          simp only [resumeBringUp, htask] at h
          obtain rfl := congrArg Prod.fst (Option.some.inj h)
          refine ⟨f.attemptsLeft cfg + 1, 3, .trying (n := 3) ?_ running, by omega, hlimit⟩
          rw [setTask_self]
          show At w _ _ (f.executor ++ [.reap w]) 3
          rw [hthread]
          exact .reap none
      | reap | taken =>
          simp only [resumeBringUp, htask] at h
          exact absurd h (by simp)
      | reaped =>
          simp only [resumeBringUp, htask] at h
          obtain rfl := congrArg Prod.fst (Option.some.inj h)
          exact spawnChild_below running hthread hlimit
  | greeting place running =>
      generalize htask : f.tasks w = task at place
      generalize hthread : f.executor = jobs at place
      cases place with
      | waiting k =>
          simp only [resumeBringUp, htask] at h
          exact absurd h (by simp)
      | heard k out =>
          simp only [resumeBringUp, htask] at h
          obtain rfl := congrArg Prod.fst (Option.some.inj h)
          exact afterHello_below running hthread hlimit
  | replaying place running =>
      generalize htask : f.tasks w = task at place
      generalize hthread : f.executor = jobs at place
      cases place with
      | asked | written =>
          simp only [resumeBringUp, htask] at h
          exact absurd h (by simp)
      | back k tag args out =>
          simp only [resumeBringUp, htask] at h
          obtain rfl := congrArg Prod.fst (Option.some.inj h)
          exact afterReprime_below running hthread hlimit
  | cleaning reason place degraded =>
      generalize htask : f.tasks w = task at place
      generalize hthread : f.executor = jobs at place
      cases place with
      | reap | taken =>
          simp only [resumeBringUp, htask] at h
          exact absurd h (by simp)
      | reaped =>
          simp only [resumeBringUp, htask] at h
          obtain rfl := congrArg Prod.fst (Option.some.inj h)
          exact endBringUp_below (f := setReady f) (Or.inr degraded) hthread (by omega) hlimit
  | ended settled thread =>
      simp only [resumeBringUp, settled.1] at h
      exact absurd h (by simp)

/-! ### Whole runs

The rank is a pair, the children still to be spawned before the steps still to be taken, in
lexicographic order.  A step of the front-end lowers it and a step of a child leaves it alone.
-/

/-- How far a lone bring-up is from its end. -/
def Rank (cfg : CoordSettings) (w : BringUpTask) (limit : Nat) (f : Flight κ) (r : Nat) : Prop :=
  ∃ b n, Lone cfg w f b n ∧ f.spawns + b ≤ limit ∧ r = 10 * b + n

theorem Below.rank (h : Below cfg w limit b n f) : ∃ r, r < 10 * b + n ∧ Rank cfg w limit f r := by
  obtain ⟨b', n', hl, hlt, hlimit⟩ := h
  exact ⟨_, hlt, b', n', hl, hlimit, rfl⟩

/-- What the bring-up and the thread do brings it nearer. -/
theorem Rank.own {a : LoneAction κ} {r : Nat} (hr : Rank cfg w limit f r) (ha : a.Own)
    (hstep : LoneStep cfg prog w f a f') : ∃ r', r' < r ∧ Rank cfg w limit f' r' := by
  obtain ⟨b, n, hl, hlimit, rfl⟩ := hr
  cases hstep with
  | resume h => exact (resumeBringUp_below hl h hlimit).rank
  | thread h => exact (runExecutor_below hl h hlimit).rank
  | children => cases ha

/-- What the children do leaves it where it is. -/
theorem Lone.children {c : ChildId → Child κ} (hl : Lone cfg w f b n) :
    Lone cfg w { f with children := c } b n := by
  cases hl with
  | trying place running => exact .trying place running
  | greeting place running => exact .greeting place running
  | replaying place running => exact .replaying place running
  | cleaning reason place degraded => exact .cleaning reason place degraded
  | ended settled thread => exact .ended settled thread

theorem Rank.other {a : LoneAction κ} {r : Nat} (hr : Rank cfg w limit f r) (ha : ¬ a.Own)
    (hstep : LoneStep cfg prog w f a f') : Rank cfg w limit f' r := by
  obtain ⟨b, n, hl, hlimit, hrank⟩ := hr
  cases hstep with
  | resume => exact absurd .resume ha
  | thread => exact absurd (.thread _) ha
  | children => exact ⟨b, n, hl.children, hlimit, hrank⟩

/-- The bring-up starts with two counts at most. -/
theorem bringUpLoop_rank {f₀ : Flight κ} (halone : f₀.executor = []) (hrun : f₀.state ≠ .stopping)
    (hfresh : f₀.restartAttempts = 0) :
    ∃ r, Rank cfg w (f₀.spawns + 2 * cfg.maxRestartAttempts) (bringUpLoop cfg w f₀) r := by
  have hleft : f₀.attemptsLeft cfg ≤ 2 * cfg.maxRestartAttempts := by
    have howed : f₀.owed cfg ≤ cfg.maxRestartAttempts := owed_le
    unfold attemptsLeft
    omega
  have hbelow : Below cfg w (f₀.spawns + 2 * cfg.maxRestartAttempts) (f₀.attemptsLeft cfg + 1) 0
      (bringUpLoop cfg w f₀) :=
    bringUpLoop_below hrun halone (by omega) (Nat.add_le_add_left hleft _)
  obtain ⟨r, -, hr⟩ := hbelow.rank
  exact ⟨r, hr⟩

theorem At.pos {leg : Leg} {task : BringUp} {jobs : List Job} (h : At w leg task jobs n) :
    0 < n := by
  cases h <;> omega

/-- At rank zero it is over. -/
theorem Rank.settled (hr : Rank cfg w limit f 0) : f.Settled w := by
  obtain ⟨b, n, hl, -, hrank⟩ := hr
  cases hl with
  | trying place running | greeting place running | replaying place running
  | cleaning reason place degraded =>
      have hpos := place.pos
      omega
  | ended settled thread => exact settled

/-! ### Going on

A rank that goes down is no use if the bring-up can be stuck.  It is not: in every state but the
last the task or the thread can go on, unless the thread waits for an answer, and that comes by
assumption.
-/

theorem resume_ready (h : (f.resumeBringUp cfg prog w).isSome) :
    ∃ a f', LoneAction.Own a ∧ LoneStep cfg prog w f a f' := by
  obtain ⟨⟨f', e⟩, h⟩ := Option.isSome_iff_exists.mp h
  exact ⟨.resume, f', .resume, .resume h⟩

theorem thread_ready (fails : Option String) (h : (f.runExecutor fails).isSome) :
    ∃ a f', LoneAction.Own a ∧ LoneStep cfg prog w f a f' := by
  obtain ⟨f', h⟩ := Option.isSome_iff_exists.mp h
  exact ⟨.thread fails, f', .thread fails, .thread h⟩

/-- Nothing holds a bring-up up but an answer it waits for. -/
theorem At.ready {leg : Leg} (h : At w leg (f.tasks w) f.executor n)
    (hanswered : ∀ k, f.AwaitsReply k → f.Answered k) :
    ∃ a f', LoneAction.Own a ∧ LoneStep cfg prog w f a f' := by
  generalize htask : f.tasks w = task at h
  generalize hthread : f.executor = jobs at h
  cases h with
  | backoff | heard | back => exact resume_ready (by simp only [resumeBringUp, htask]; rfl)
  | reaped fatal =>
      cases fatal with
      | none => exact resume_ready (by simp only [resumeBringUp, htask]; rfl)
      | some reason => exact resume_ready (by simp only [resumeBringUp, htask]; rfl)
  | reap | taken | asked => exact thread_ready none (by simp [runExecutor, hthread])
  | waiting k => exact thread_ready (some "") (by simp [runExecutor, hthread])
  | written k tag args =>
      rcases hanswered k ⟨.task w, by rw [hthread]; rfl⟩ with hsaid | hdead
      · obtain ⟨s, more, hout⟩ := List.exists_cons_of_ne_nil hsaid
        exact thread_ready none (by simp [runExecutor, hthread, hout])
      · exact thread_ready (some "") (by simp [runExecutor, hthread, hdead])

theorem Rank.ready {r : Nat} (hr : Rank cfg w limit f (r + 1))
    (hanswered : ∀ k, f.AwaitsReply k → f.Answered k) :
    ∃ a f', LoneAction.Own a ∧ LoneStep cfg prog w f a f' := by
  obtain ⟨b, n, hl, -, hrank⟩ := hr
  cases hl with
  | trying place running | greeting place running | replaying place running
  | cleaning reason place degraded => exact place.ready hanswered
  | ended settled thread => omega

/-! ### Fair runs

A fair run takes one of those steps in the end, so that there is no run in which the rank stays
above zero.
-/

theorem Answered.children {k : ChildId} {c : ChildId → Child κ} (h : f.Answered k)
    (hstirs : f.Stirs c) : Answered k { f with children := c } := by
  obtain ⟨hsaid, hdead⟩ := hstirs k
  rcases h with h | h
  · refine Or.inl fun hnil => h ?_
    have hc : (c k).outbox = [] := hnil
    rw [hc] at hsaid
    exact List.prefix_nil.mp hsaid
  · exact Or.inr (hdead h)

variable {f₀ : Flight κ}

/-- While the front-end stands still, an answer it waits for comes, and stays. -/
theorem LoneRun.answered_from (run : LoneRun cfg prog w f₀) {n : Nat}
    (hnone : ∀ m, n ≤ m → ¬ (run.label m).Own) :
    ∃ N, n ≤ N ∧ ∀ m, N ≤ m → ∀ k, (run.state m).AwaitsReply k → (run.state m).Answered k := by
  have hsame : ∀ m, n ≤ m → (run.state m).executor = (run.state n).executor := by
    intro m hm
    refine run.until_own (P := fun f => f.executor = (run.state n).executor) ?_ rfl hm hnone
    intro f a f' h ho hstep
    cases hstep with
    | resume => exact absurd .resume ho
    | thread => exact absurd (.thread _) ho
    | children => exact h
  by_cases hwaits : ∃ k, (run.state n).AwaitsReply k
  · obtain ⟨k, o, hk⟩ := hwaits
    obtain ⟨N, hN, hcame⟩ := run.answered n k ⟨o, hk⟩
    have hfirst : (run.state N).Answered k := hcame ⟨o, by rw [hsame N hN]; exact hk⟩
    refine ⟨N, hN, fun m hm j hj => ?_⟩
    have hjk : j = k := by
      obtain ⟨o', hj⟩ := hj
      rw [hsame m (by omega), hk] at hj
      cases hj
      rfl
    rw [hjk]
    refine run.until_own (P := fun f => f.Answered k) ?_ hfirst hm fun i hi => hnone i (by omega)
    intro f a f' h ho hstep
    cases hstep with
    | resume => exact absurd .resume ho
    | thread => exact absurd (.thread _) ho
    | children hstirs => exact h.children hstirs
  · refine ⟨n, Nat.le_refl n, fun m hm k hk => absurd ⟨k, ?_⟩ hwaits⟩
    obtain ⟨o, hk⟩ := hk
    exact ⟨o, by rw [← hsame m hm]; exact hk⟩

/-- A bring-up that is not over goes on. -/
theorem LoneRun.goesOn (run : LoneRun cfg prog w f₀) {n r : Nat}
    (hr : Rank cfg w limit (run.state n) (r + 1)) : ∃ m, n ≤ m ∧ (run.label m).Own := by
  by_contra hstill
  have hnone : ∀ m, n ≤ m → ¬ (run.label m).Own := fun m hm ho => hstill ⟨m, hm, ho⟩
  have hranked : ∀ m, n ≤ m → Rank cfg w limit (run.state m) (r + 1) := fun m hm =>
    run.until_own (P := fun f => Rank cfg w limit f (r + 1)) (fun _ _ _ h ho hs => h.other ho hs)
      hr hm hnone
  obtain ⟨N, hN, hanswered⟩ := run.answered_from hnone
  obtain ⟨m, hm, ho⟩ := run.fair N fun m hm =>
    (hranked m (Nat.le_trans hN hm)).ready (hanswered m hm)
  exact hnone m (Nat.le_trans hN hm) ho

/-- **Bring-up always settles**: run alone, with every command answered or its child dead in
the end, `_bring_up` returns, in READY or DEGRADED, and has spawned no more than twice as
many children as it may attempt. -/
theorem bring_up_settles (halone : f₀.executor = []) (hrun : f₀.state ≠ .stopping)
    (hfresh : f₀.restartAttempts = 0) (run : LoneRun cfg prog w f₀) :
    (∃ N, ∀ n, N ≤ n → (run.state n).Settled w) ∧
      ∀ n, (run.state n).spawns ≤ f₀.spawns + 2 * cfg.maxRestartAttempts := by
  have hown := fun f a f' r (hr : Rank cfg w (f₀.spawns + 2 * cfg.maxRestartAttempts) f r)
    (ha : LoneAction.Own a) (hs : LoneStep cfg prog w f a f') => hr.own ha hs
  have hother := fun f a f' r (hr : Rank cfg w (f₀.spawns + 2 * cfg.maxRestartAttempts) f r)
    (ha : ¬ LoneAction.Own a) (hs : LoneStep cfg prog w f a f') => hr.other ha hs
  obtain ⟨r, hr⟩ :
      ∃ r, Rank cfg w (f₀.spawns + 2 * cfg.maxRestartAttempts) (bringUpLoop cfg w f₀) r :=
    bringUpLoop_rank halone hrun hfresh
  have hstart : Rank cfg w (f₀.spawns + 2 * cfg.maxRestartAttempts) (run.state 0) r := by
    rw [show run.state 0 = bringUpLoop cfg w f₀ from run.called]
    exact hr
  constructor
  · obtain ⟨N, hN⟩ := run.settles hown hother (fun n r h => run.goesOn h) r 0 hstart
    exact ⟨N, fun n hn => (hN n hn).settled⟩
  · intro n
    obtain ⟨_, -, b, _, -, hlimit, -⟩ := run.ranked hown hother hstart (Nat.zero_le n)
    omega

/-! ### A replay that kills its child

The bound is reached.  The server of this run has one attempt per count; its first child dies of
the replay, which starts the second count, and the child after it is told nothing and comes up.
-/

/-- Steps of the flight that leave the bring-up alone are a run of it. -/
theorem follow_lone {l : List (FlightAction σ)} (hl : ∀ a, a ∈ l → a.Alone w)
    (h : Flight.follow cfg prog l f = some f') : (loneSystem cfg prog w f₀).Path f f' := by
  induction l generalizing f with
  | nil =>
      rw [Option.some.inj h]
      exact .refl
  | cons a rest ih =>
      obtain ⟨g, hg, hrest⟩ := Option.bind_eq_some_iff.mp h
      obtain ⟨⟨g', e⟩, hnext, rfl⟩ := Option.map_eq_some_iff.mp hg
      obtain ⟨b, hb⟩ := next_lone (hl a (by simp)) hnext
      exact .head ⟨b, hb⟩ (ih (fun a ha => hl a (by simp [ha])) hrest)

/-- A bring-up that has returned is a run that goes on for ever at rest. -/
theorem LoneRun.of_path (htask : f.tasks w = .absent) (hthread : f.executor = [])
    (hpath : (loneSystem cfg prog w f₀).Path (bringUpLoop cfg w f₀) f) :
    ∃ run : LoneRun cfg prog w f₀, ∃ n, run.state n = f := by
  have hidle : LoneStep cfg prog w f (.children f.children) f :=
    .children fun k => ⟨List.prefix_refl _, id⟩
  have hstuck : ∀ a f', LoneAction.Own a → ¬ LoneStep cfg prog w f a f' := by
    intro a f' ha hstep
    cases hstep with
    | resume h =>
        simp only [resumeBringUp, htask] at h
        exact absurd h (by simp)
    | thread h =>
        simp only [runExecutor, hthread] at h
        exact absurd h (by simp)
    | children => cases ha
  obtain ⟨run, hstart, N, hN⟩ : ∃ run : FairRun (loneSystem cfg prog w f₀) LoneAction.Own,
      run.state 0 = bringUpLoop cfg w f₀ ∧ ∃ N, ∀ m, N ≤ m → run.state m = f :=
    FairRun.of_path hidle hstuck hpath
  refine ⟨⟨run, hstart, fun n k hk => ⟨max n N, Nat.le_max_left .., ?_⟩⟩, N, hN N (Nat.le_refl N)⟩
  intro hc
  obtain ⟨o, ho⟩ := hc
  rw [hN (max n N) (Nat.le_max_right ..), hthread] at ho
  exact absurd ho (by simp)

/-- A server that gives every bring-up one attempt. -/
def oneAttempt : CoordSettings := ⟨1, [0], by simp⟩

/-- It comes up with a prepare to replay. -/
def primedStart : Flight Unit :=
  { Flight.started .scripted with primedArgs := some ⟨"r_57", 0, 0, "", []⟩ }

/-- The first child dies of the replay, and the second is not given it. -/
def replayKills : List (FlightAction Msg) :=
  [.runExecutor none, .runExecutor none, .resumeBringUp .startup, .boot 0 .hello,
    .runExecutor none, .resumeBringUp .startup, .runExecutor none, .receive 0, .die 0,
    .runExecutor (some "coordinator died"), .resumeBringUp .startup, .runExecutor none,
    .runExecutor none, .resumeBringUp .startup, .boot 1 .hello, .runExecutor none,
    .resumeBringUp .startup]

theorem replayKills_alone (a : FlightAction Msg) (ha : a ∈ replayKills) : a.Alone .startup := by
  simp only [replayKills, List.mem_cons, List.not_mem_nil, or_false] at ha
  rcases ha with rfl | rfl | rfl | rfl | rfl | rfl | rfl | rfl | rfl | rfl | rfl | rfl | rfl | rfl |
    rfl | rfl | rfl <;> constructor

/-- A bring-up that spawns as many children as it may, and settles in READY. -/
theorem bring_up_settles_replayed :
    ∃ run : LoneRun oneAttempt .scripted .startup primedStart,
      (∃ n, (run.state n).state = .ready ∧
        (run.state n).spawns = primedStart.spawns + 2 * oneAttempt.maxRestartAttempts) ∧
      (∃ N, ∀ n, N ≤ n → (run.state n).Settled .startup) ∧
      ∀ n, (run.state n).spawns ≤ primedStart.spawns + 2 * oneAttempt.maxRestartAttempts := by
  obtain ⟨f, hf, hready, hspawns, htask, hthread⟩ : ∃ f, Flight.follow oneAttempt .scripted
      replayKills (bringUpLoop oneAttempt .startup primedStart) = some f ∧ f.state = .ready ∧
      f.spawns = 2 ∧ f.tasks .startup = .absent ∧ f.executor = [] := ⟨_, rfl, rfl, rfl, rfl, rfl⟩
  obtain ⟨run, n, hn⟩ := LoneRun.of_path htask hthread (follow_lone replayKills_alone hf)
  exact ⟨run, ⟨n, by rw [hn]; exact hready, by rw [hn]; exact hspawns⟩,
    bring_up_settles rfl (by decide) rfl run⟩

end Flight

end DonutServer
