/-
Processes that remember other commands under the same keys.

The table of commands is read in one place, where a job brings back a config whose entry
was evicted, and of the command found there only what its key says is used.  So two
processes that differ in nothing but which command of a key they remember do the same in
every step: each function of a prepare and of a job, run in both, gives the same and leaves
them as far apart as they were.
-/
import DonutServer.Lib.Lockstep
import DonutServer.Coordinator.Caches
import DonutServer.Coordinator.Job

namespace DonutServer

open Effect Function

variable {S : Stack} {env : Env S}

/-! ### What two commands of one key have in common

All that a key holds.  The boresights may differ as long as they touch the same shards, and then
only the report on the refcat does, which repeats the boresight; the overrides may differ as long
as they have one key, and then nothing does.
-/

/-- A calib request: what `resolve` reads of a command. -/
theorem calibBackend_resolve {b : CalibBackend S} (hb : calibBackend env = .ok b)
    {c c' : PrepareCommand} (hfilter : c.physicalFilter = c'.physicalFilter)
    (htime : c.calibTime = c'.calibTime) : b.resolve c = b.resolve c' := by
  unfold calibBackend at hb
  dsimp only at hb
  split at hb
  · rw [← Except.ok.inj hb]
    show Except.ok (_, _) = Except.ok (_, _)
    rw [hfilter]
  · split at hb
    · rw [← Except.ok.inj hb]
      show butlerResolve env c = butlerResolve env c'
      unfold butlerResolve
      rw [hfilter, htime]
    · exact absurd hb (by simp)

theorem ensureCalib_congr {c c' : PrepareCommand} (hfilter : c.physicalFilter = c'.physicalFilter)
    (htime : c.calibTime = c'.calibTime) : ensureCalib env c = ensureCalib env c' := by
  unfold ensureCalib
  rcases hb : calibBackend env with exc | b
  · rfl
  · dsimp only
    unfold ensureCalibFrom
    rw [calibBackend_resolve hb hfilter htime, htime]

/-- The shards about the boresights of two commands of one key. -/
theorem Keyed.shards {k : PrepareKey} {c c' : PrepareCommand} (h : Keyed env k c)
    (h' : Keyed env k c') :
    Alike (fun ids ids' => ids.toFinset = ids'.toFinset)
      (shardIdsForPointing env c.boresightRa c.boresightDec)
      (shardIdsForPointing env c'.boresightRa c'.boresightDec) := by
  obtain ⟨ids, hids, hk⟩ := h.parts
  obtain ⟨ids', hids', hk'⟩ := h'.parts
  rw [hids, hids']
  refine .ok ?_
  have heq := hk.symm.trans hk'
  exact (PrepareKey.mk.inj heq).2.2.1

theorem sameShards (x : Except Exn (List Nat)) :
    Alike (fun ids ids' => ids.toFinset = ids'.toFinset) x x :=
  Alike.refl (fun ids => Eq.refl ids.toFinset) x

/-- Their overrides build one task. -/
theorem Keyed.task {k : PrepareKey} {c c' : PrepareCommand} (h : Keyed env k c)
    (h' : Keyed env k c') : buildTask env c.configOverrides = buildTask env c'.configOverrides := by
  obtain ⟨_, -, hk⟩ := h.parts
  obtain ⟨_, -, hk'⟩ := h'.parts
  have heq := hk.symm.trans hk'
  exact buildTask_congr env (PrepareKey.mk.inj heq).1

/-- They ask for the same calibs. -/
theorem Keyed.calib {k : PrepareKey} {c c' : PrepareCommand} (h : Keyed env k c)
    (h' : Keyed env k c') : ensureCalib env c = ensureCalib env c' := by
  obtain ⟨_, -, hk⟩ := h.parts
  obtain ⟨_, -, hk'⟩ := h'.parts
  have heq := PrepareKey.mk.inj (hk.symm.trans hk')
  exact ensureCalib_congr heq.2.1 heq.2.2.2

/-- So activating an entry for either is one and the same. -/
theorem Keyed.activate {k : PrepareKey} {c c' : PrepareCommand} (h : Keyed env k c)
    (h' : Keyed env k c') (entry : PreparedEntry S) :
    activateEntry env entry c = activateEntry env entry c' := by
  unfold activateEntry
  rw [h.calib h']

/-- What is reported of two boresights with the same shards: all but the boresight is the same. -/
def SameRefcat (b b' : ℚ × ℚ) (r r' : RefcatTiming) : Prop :=
  r = { r' with boresight := b } ∧ r' = { r with boresight := b' }

theorem SameRefcat.eq {b : ℚ × ℚ} {r r' : RefcatTiming} (h : SameRefcat b b r r') : r = r' := by
  obtain ⟨h, h'⟩ := h
  rw [h, h']

/-! ### Relations that go by the table

The lemmas below are about any relation between two processes that looks at nothing but their
tables.  Such a relation is kept by code that does not touch the table, provided it does the same
in both, and that is the case for all of the functions that follow; the two that do touch it are
dealt with where the relation is a particular one.
-/

/-- `R` relates processes that differ at most in their tables, and goes by the tables alone. -/
structure ByTables (R : Process S → Process S → Prop) : Prop where
  same : ∀ {p q}, R p q → q = { p with prepareCommands := q.prepareCommands }
  only : ∀ {p q p'}, R p q → p'.prepareCommands = p.prepareCommands →
    R p' { p' with prepareCommands := q.prepareCommands }

/-- Equality is such a relation: the tables are equal too. -/
theorem byTables_eq : ByTables (Eq : Process S → Process S → Prop) where
  same h := by rw [← h]
  only h h' := by rw [← h, ← h']

/-- What an expression comes to, it comes to in both. -/
theorem evaluate_lockstep {R : Process S → Process S → Prop} {α : Type} (x : Except Exn α) :
    Lockstep R Eq (evaluate x : Code S α) (evaluate x) :=
  .ofExcept (.refl (fun _ => rfl) x)

namespace ByTables

variable {R : Process S → Process S → Prop} (hR : ByTables R) {α β : Type}

include hR

/-- What is read is read past the table. -/
theorem reads {V : α → β → Prop} {f : Process S → Code S α} {f' : Process S → Code S β}
    (h : ∀ p table, Lockstep R V (f p) (f' { p with prepareCommands := table })) :
    Lockstep R V (get >>= f) (get >>= f') := by
  refine Lockstep.get.bind ?_
  intro p q hpq
  rw [hR.same hpq]
  exact h p _

/-- What is written is written past the table. -/
theorem writes {V : α → β → Prop} {f f' : Process S → Process S} {m : PUnit → Code S α}
    {m' : PUnit → Code S β} (hm : Lockstep R V (m ⟨⟩) (m' ⟨⟩))
    (h : ∀ p table, f' { p with prepareCommands := table } =
      { f p with prepareCommands := table })
    (hkeep : ∀ p, (f p).prepareCommands = p.prepareCommands) :
    Lockstep R V (modify f >>= m) (modify f' >>= m') := by
  have hwrite : Lockstep R Eq (modify f : Code S PUnit) (modify f') := by
    refine Lockstep.write ?_
    intro p q hpq
    rw [hR.same hpq, h]
    exact hR.only hpq (hkeep p)
  exact hwrite.then' fun _ => hm

/-- The faults ahead are the same in both. -/
theorem fault : Lockstep R Eq (DonutServer.fault : Code S Unit) DonutServer.fault := by
  refine hR.reads ?_
  intro p table
  refine hR.writes ?_ (fun _ _ => rfl) fun _ => rfl
  dsimp only
  rcases p.world.faults.head? with _ | _ | exc
  · exact .pure rfl
  · exact .pure rfl
  · exact .throw exc

theorem external {V : α → β → Prop} {x : Except Exn α} {y : Except Exn β} (h : Alike V x y) :
    Lockstep R V (DonutServer.external x : Code S α) (DonutServer.external y) :=
  hR.fault.then' fun _ => .ofExcept h

/-- A call out of the process that both make. -/
theorem calls (x : Except Exn α) :
    Lockstep R Eq (DonutServer.external x : Code S α) (DonutServer.external x) :=
  hR.external (.refl (fun _ => rfl) x)

/-! ### The refcat

The functions of the refcat, in the source's order.  None of them looks at the table.
-/

theorem ensureEachShard (ids : List Nat) (shards : Children S) (loaded : Nat) :
    Lockstep R Eq (DonutServer.ensureEachShard env ids shards loaded)
      (DonutServer.ensureEachShard env ids shards loaded) := by
  induction ids generalizing shards loaded with
  | nil => exact .pure rfl
  | cons id rest ih =>
      unfold DonutServer.ensureEachShard
      refine hR.reads ?_
      intro p table
      dsimp only
      cases p.shardCache.get? id with
      | none =>
          refine (hR.calls _).then' fun children => ?_
          exact hR.writes (ih _ _) (fun _ _ => rfl) fun _ => rfl
      | some children =>
          exact hR.writes (ih _ _) (fun _ _ => rfl) fun _ => rfl

theorem ensureShards (wanted : Finset Nat) :
    Lockstep R Eq (DonutServer.ensureShards env wanted) (DonutServer.ensureShards env wanted) := by
  unfold DonutServer.ensureShards
  refine (hR.ensureEachShard _ _ _).then' fun result => ?_
  exact hR.writes (.pure rfl) (fun _ _ => rfl) fun _ => rfl

theorem refillStore (store : StoreId) (wanted : Finset Nat) :
    Lockstep R Eq (DonutServer.refillStore env store wanted)
      (DonutServer.refillStore env store wanted) := by
  unfold DonutServer.refillStore
  refine (hR.ensureShards wanted).then' fun result => ?_
  exact hR.writes (.pure rfl) (fun _ _ => rfl) fun _ => rfl

theorem ensureStore (store : StoreId) {ra dec ra' dec' : ℚ}
    (hids : Alike (fun ids ids' => ids.toFinset = ids'.toFinset)
      (shardIdsForPointing env ra dec) (shardIdsForPointing env ra' dec')) :
    Lockstep R (SameRefcat (ra, dec) (ra', dec')) (DonutServer.ensureStore env store ra dec)
      (DonutServer.ensureStore env store ra' dec') := by
  unfold DonutServer.ensureStore
  refine (hR.external hids).bind ?_
  intro ids ids' hsame
  rw [hsame]
  refine hR.reads ?_
  intro p table
  dsimp only
  split
  · refine (Lockstep.pure rfl).then' fun loaded => hR.reads ?_
    intro q table
    exact .pure ⟨rfl, rfl⟩
  · refine (hR.refillStore store _).then' fun loaded => hR.reads ?_
    intro q table
    exact .pure ⟨rfl, rfl⟩

/-! ### The calibs

The calibs of a prepare, for one command in both processes.
-/

theorem ensureDetectorCalibs (b : CalibBackend S) (ids : CalibIds) (r : b.Resolved) :
    Lockstep R Eq (DonutServer.ensureDetectorCalibs b ids r)
      (DonutServer.ensureDetectorCalibs b ids r) := by
  have hloads : Lockstep R Eq
      (do
        let detector ← DonutServer.external (b.loadDetector r)
        modify fun p => { p with detectorCalibCache := some (ids.detector, detector) }
        pure (detector, false))
      (do
        let detector ← DonutServer.external (b.loadDetector r)
        modify fun p => { p with detectorCalibCache := some (ids.detector, detector) }
        pure (detector, false)) :=
    (hR.calls _).then' fun _ => hR.writes (.pure rfl) (fun _ _ => rfl) fun _ => rfl
  unfold DonutServer.ensureDetectorCalibs
  refine hR.reads ?_
  intro p table
  dsimp only
  rcases p.detectorCalibCache with _ | ⟨id, detector⟩
  · exact hloads
  · dsimp only
    split
    · exact .pure rfl
    · exact hloads

theorem ensureFilterCalibs (b : CalibBackend S) (ids : CalibIds) (r : b.Resolved)
    (detector : DetectorCalibs S) :
    Lockstep R Eq (DonutServer.ensureFilterCalibs b ids r detector)
      (DonutServer.ensureFilterCalibs b ids r detector) := by
  unfold DonutServer.ensureFilterCalibs
  refine hR.reads ?_
  intro p table
  dsimp only
  cases p.filterCalibCache.get? ids.filtered with
  | some filtered =>
      exact hR.writes (.pure rfl) (fun _ _ => rfl) fun _ => rfl
  | none =>
      refine (hR.calls _).then' fun filtered => ?_
      exact hR.writes (.pure rfl) (fun _ _ => rfl) fun _ => rfl

theorem ensureCalib (c : PrepareCommand) :
    Lockstep R Eq (DonutServer.ensureCalib env c) (DonutServer.ensureCalib env c) := by
  unfold DonutServer.ensureCalib
  rcases calibBackend env with exc | b
  · exact .throw exc
  · refine (hR.calls _).then' fun resolved => ?_
    refine (hR.ensureDetectorCalibs b _ _).then' fun detector => ?_
    exact (hR.ensureFilterCalibs b _ _ _).then' fun filtered => .pure rfl

/-! ### Entries

An entry is built and activated for two commands here, one in each process, where these have what a
key holds in common.
-/

theorem activateEntry (entry : PreparedEntry S) (c : PrepareCommand) :
    Lockstep R Eq (DonutServer.activateEntry env entry c)
      (DonutServer.activateEntry env entry c) := by
  unfold DonutServer.activateEntry
  refine (hR.ensureCalib c).then' fun calib => ?_
  exact hR.writes (.pure rfl) (fun _ _ => rfl) fun _ => rfl

theorem newStore : Lockstep R Eq (DonutServer.newStore : Code S StoreId) DonutServer.newStore := by
  unfold DonutServer.newStore
  refine hR.reads ?_
  intro p table
  exact hR.writes (.pure rfl) (fun _ _ => rfl) fun _ => rfl

/-- Two commands with one task and the same shards build one entry, in the same way. -/
theorem buildEntry (k : PrepareKey) {c c' : PrepareCommand}
    (htask : buildTask env c.configOverrides = buildTask env c'.configOverrides)
    (hids : Alike (fun ids ids' => ids.toFinset = ids'.toFinset)
      (shardIdsForPointing env c.boresightRa c.boresightDec)
      (shardIdsForPointing env c'.boresightRa c'.boresightDec)) :
    Lockstep R (fun r r' => r.1 = r'.1 ∧ r.2.1 = r'.2.1 ∧
        SameRefcat (c.boresightRa, c.boresightDec) (c'.boresightRa, c'.boresightDec) r.2.2 r'.2.2)
      (DonutServer.buildEntry env k c) (DonutServer.buildEntry env k c') := by
  unfold DonutServer.buildEntry
  rw [htask]
  refine (hR.calls _).then' fun task => ?_
  refine (hR.calls _).then' fun _ => ?_
  refine (evaluate_lockstep _).then' fun dir => ?_
  refine (hR.calls _).then' fun _ => ?_
  refine hR.newStore.then' fun store => ?_
  refine (hR.ensureStore store hids).bind ?_
  intro refcat refcat' hrefcat
  exact .pure ⟨rfl, rfl, hrefcat⟩

theorem ensureUniverse :
    Lockstep R Eq (DonutServer.ensureUniverse env) (DonutServer.ensureUniverse env) := by
  unfold DonutServer.ensureUniverse
  refine hR.reads ?_
  intro p table
  dsimp only
  split
  · exact .pure rfl
  · refine (hR.calls _).then' fun _ => ?_
    exact hR.writes (m := fun _ => pure _) (.pure rfl) (fun _ _ => rfl) fun _ => rfl

/-! ### Jobs

A job reads the live config and the outside, and no table at all.
-/

theorem requireTask :
    Lockstep R Eq (DonutServer.requireTask : Code S S.Task) DonutServer.requireTask := by
  unfold DonutServer.requireTask
  refine hR.reads ?_
  intro p table
  dsimp only
  cases p.task with
  | none => exact .throw _
  | some task => exact .pure rfl

theorem buildQuantumContext (exposures : Exposures S) (calib : CalibSet S) :
    Lockstep R Eq (DonutServer.buildQuantumContext env exposures calib)
      (DonutServer.buildQuantumContext env exposures calib) := by
  unfold DonutServer.buildQuantumContext
  refine hR.requireTask.then' fun _ => hR.fault.then' fun _ => ?_
  refine (evaluate_lockstep _).then' fun _ => (evaluate_lockstep _).then' fun _ => ?_
  refine (evaluate_lockstep _).then' fun sample => (hR.calls _).then' fun v => ?_
  refine (hR.calls _).then' fun needed => hR.reads ?_
  intro p table
  refine (evaluate_lockstep _).then' fun _ => (hR.calls _).then' fun inputs => ?_
  exact hR.fault.then' fun _ => .pure rfl

theorem beforeQuantum (exposures : Exposures S) :
    Lockstep R Eq (DonutServer.beforeQuantum env exposures)
      (DonutServer.beforeQuantum env exposures) := by
  unfold DonutServer.beforeQuantum
  refine (evaluate_lockstep _).then' fun sample => (hR.calls _).then' fun physicalFilter => ?_
  refine hR.reads ?_
  intro p table
  dsimp only
  rcases p.calibStore with _ | ⟨loaded, calib⟩
  · exact .throw _
  · refine (evaluate_lockstep _).then' fun _ => (hR.buildQuantumContext exposures calib).then' ?_
    intro bundle
    exact hR.requireTask.then' fun task => .pure rfl

theorem runJob (jobId : JobId) (exposures : Exposures S) (numWorkers : Option Int) :
    Lockstep R Eq (DonutServer.runJob env jobId exposures numWorkers)
      (DonutServer.runJob env jobId exposures numWorkers) := by
  unfold DonutServer.runJob
  refine (hR.beforeQuantum exposures).then' fun quantum => hR.reads ?_
  intro p table
  refine (hR.calls _).then' fun result => ?_
  exact hR.writes (.pure rfl) (fun _ _ => rfl) fun _ => rfl

theorem runPush (jobId : JobId) (layout : List PartLayout) (numWorkers : Option Int) :
    Lockstep R Eq (DonutServer.runPush env jobId layout numWorkers)
      (DonutServer.runPush env jobId layout numWorkers) := by
  unfold DonutServer.runPush reconstructExposures
  refine (hR.reads ?_).then' fun exposures => hR.runJob jobId exposures numWorkers
  intro p table
  exact hR.calls _

theorem runIngest (jobId : JobId) (directory : String) (numWorkers : Option Int) :
    Lockstep R Eq (DonutServer.runIngest env jobId directory numWorkers)
      (DonutServer.runIngest env jobId directory numWorkers) := by
  unfold DonutServer.runIngest
  refine hR.reads ?_
  intro p table
  refine (hR.calls _).then' fun exposures => ?_
  refine (hR.runJob jobId exposures numWorkers).then' fun result => ?_
  exact hR.fault.then' fun _ => .pure rfl

end ByTables

end DonutServer
