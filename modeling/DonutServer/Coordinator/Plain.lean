/-
What a job comes to, by its prepare and its raws alone.

A coordinator runs a job off what it has cached for other jobs, under the config that the
last activation left, on a block that other pushes have used.  `plainQuantum` knows of none
of these.  It makes the task, loads the shards and resolves the calibs of one prepare, and
puts the quantum of one set of raws together from them, in one straight line.

A job that is run agrees with it.  Reading code comes to a plain value of what it reads, one
rule a way of building it (`ComesTo`).  Code that writes as well, as a prepare does, leaves the
world outside as it was (`Installs`), and what it comes to is as plain (`Agrees`).
-/
import DonutServer.Coordinator.Activation
import DonutServer.Coordinator.CrossCheck
import DonutServer.Coordinator.Isolation
import DonutServer.Flight.ServedConfig

namespace DonutServer

open Effect Function

variable {S : Stack} (env : Env S)

/-! ### The plain job

Everything here is a function of a prepare, some raws and what is outside.  The order of the checks
is the code's, so that the error is the same one where there is any.
-/

/-- A check, and what it raises. -/
def ensure (c : Prop) [Decidable c] (exc : Exn) : Except Exn Unit := if c then .ok () else .error exc

/-- The quantum of these raws, under calibs and shards that are there. -/
def plainContext (shardIds : Finset Nat) (shards : Children S) (calib : CalibSet S)
    (exposures : Exposures S) : Except Exn (QuantumBundle S) := do
  ensure (missingCalibs exposures calib = ∅)
    (.runtime s!"no calibs loaded for detector(s): {reprSorted (missingCalibs exposures calib)}")
  ensure ((visitIds env exposures).card = 1) (multipleVisits (visitIds env exposures))
  let sample ← sampleOf exposures
  let v ← visitInfo env sample
  let needed ← shardIdsForExposures env exposures
  ensure (needed \ shardIds = ∅) (notCovered (needed \ shardIds))
  let inputs ← quantumInputs env shards exposures calib v
  pure ⟨v.visit, inputs⟩

/-- The calibs of a prepare, loaded afresh. -/
def plainCalib (c : PrepareCommand) : Except Exn (CalibSet S) :=
  match calibBackend env with
  | .ok backend => backend.calibsFor c
  | .error exc => .error exc

/-- The task and the quantum of a job of these raws, prepared as `c` asks. -/
def plainQuantum (c : PrepareCommand) (exposures : Exposures S) :
    Except Exn (S.Task × QuantumBundle S) := do
  let (task, _) ← buildTask env c.configOverrides
  let ids ← shardIdsForPointing env c.boresightRa c.boresightDec
  let shards ← loadAndReshard env (sortedIds ids.toFinset)
  let calib ← plainCalib env c
  let sample ← sampleOf exposures
  let physicalFilter ← env.physicalLabel sample
  ensure (c.physicalFilter = physicalFilter) (wrongFilter physicalFilter (some c.physicalFilter))
  let bundle ← plainContext env ids.toFinset shards calib exposures
  pure (task, bundle)

/-- The raws a body holds. -/
def bodyExposures (body : Bytes) (layout : List PartLayout) : Except Exn (Exposures S) := do
  decodeSensors env (← splitSensors (readParts body layout))

/-- What the task makes of these raws, prepared as `c` asks. -/
def plainRun (world : World S) (c : PrepareCommand) (exposures : Exposures S)
    (numWorkers : Option Int) : Except Exn JobOutput := do
  let (task, bundle) ← plainQuantum env c exposures
  world.quantum task bundle numWorkers

/-! ### Code that reads

A piece of code comes to a plain value if it returns that value or raises that error, and leaves
the process as it was; a fault outside is allowed for, since it can make any call raise.  The rules
follow the ways code is built from smaller code, and each function of a job is then gone through
once.
-/

variable {env}

/-- The same process, some faults later. -/
def Later (p q : Process S) : Prop :=
  ∃ k, q = { p with world := { p.world with faults := p.world.faults.drop k } }

theorem Later.refl (p : Process S) : Later p p := ⟨0, rfl⟩

theorem Later.trans {p q r : Process S} (h : Later p q) (h' : Later q r) : Later p r := by
  obtain ⟨k, rfl⟩ := h
  obtain ⟨k', rfl⟩ := h'
  refine ⟨k + k', ?_⟩
  rw [← List.drop_drop]

/-- The globals are the same some faults later. -/
theorem Later.globals {p q : Process S} (h : Later p q) : q.toGlobals = p.toGlobals := by
  obtain ⟨_, rfl⟩ := h
  rfl

/-- Where nothing goes wrong outside now, nothing does later. -/
theorem Later.quiet {p q : Process S} (h : Later p q) (hp : p.world.faults = []) :
    q.world.faults = [] := by
  obtain ⟨k, rfl⟩ := h
  show p.world.faults.drop k = []
  rw [hp, List.drop_nil]

/-- Run from `p`, the code comes to `x` and changes nothing; where it raises anything else,
something went wrong outside. -/
def ComesTo {α : Type} (p : Process S) (m : Code S α) (x : Except Exn α) : Prop :=
  Ends m p (fun a q => x = .ok a ∧ Later p q) (fun exc _ => p.world.faults = [] → x = .error exc)

namespace ComesTo

variable {α β : Type} {p : Process S}

theorem pure (a : α) : ComesTo p (Pure.pure a : Code S α) (.ok a) := ⟨rfl, .refl p⟩

theorem throw (exc : Exn) : ComesTo p (MonadExcept.throw exc : Code S α) (.error exc) :=
  fun _ => rfl

theorem bind {m : Code S α} {f : α → Code S β} {x : Except Exn α} {y : α → Except Exn β}
    (hm : ComesTo p m x) (hf : ∀ a q, Later p q → ComesTo q (f a) (y a)) :
    ComesTo p (m >>= f) (x >>= y) := by
  refine (ends_bind ..).mpr (hm.mono ?_ ?_)
  · intro a q hends
    obtain ⟨rfl, hq⟩ := hends
    exact (hf a q hq).mono (fun _ _ h => ⟨h.1, hq.trans h.2⟩) fun _ _ h hp => h (hq.quiet hp)
  · intro exc _ h hp
    rw [h hp]
    rfl

/-- A step whose value is known. -/
theorem step {m : Code S α} {f : α → Code S β} {a : α} {y : Except Exn β}
    (hm : ComesTo p m (.ok a)) (hf : ∀ q, Later p q → ComesTo q (f a) y) :
    ComesTo p (m >>= f) y := by
  refine (ends_bind ..).mpr (hm.mono ?_ ?_)
  · intro a' q hends
    obtain ⟨heq, hq⟩ := hends
    obtain rfl := Except.ok.inj heq
    exact (hf q hq).mono (fun _ _ h => ⟨h.1, hq.trans h.2⟩) fun _ _ h hp => h (hq.quiet hp)
  · exact fun exc _ h hp => absurd (h hp) (by simp)

/-- What is read is what is there. -/
theorem read {f : Process S → Code S β} {y : Except Exn β} (hf : ComesTo p (f p) y) :
    ComesTo p (MonadState.get >>= f) y := by
  unfold ComesTo
  rw [ends_bind, ends_get]
  exact hf

theorem external (x : Except Exn α) : ComesTo p (DonutServer.external x : Code S α) x := by
  unfold ComesTo Ends
  rcases hrun : (DonutServer.external x : Code S α).outcome p with ⟨exc | a, q⟩
  · intro hp
    rw [external_quiet x hp] at hrun
    exact (Prod.mk.inj hrun).1
  · obtain ⟨hx, rfl⟩ := external_ok hrun
    refine ⟨hx, 1, ?_⟩
    rw [List.drop_one]
    rfl

theorem fault : ComesTo p (DonutServer.fault : Code S Unit) (.ok ()) := by
  have h : ComesTo p (DonutServer.fault >>= fun _ => DonutServer.evaluate (.ok ()) : Code S Unit)
      (.ok ()) := external (.ok ())
  unfold ComesTo at h
  rw [ends_bind] at h
  exact h.mono (fun _ _ h => h) (fun _ _ h => h)

theorem evaluate (x : Except Exn α) : ComesTo p (DonutServer.evaluate x : Code S α) x := by
  unfold ComesTo Ends
  rcases hrun : (DonutServer.evaluate x : Code S α).outcome p with ⟨exc | a, q⟩
  · exact fun _ => (Prod.mk.inj hrun).1
  · obtain ⟨hx, rfl⟩ := evaluate_ok hrun
    exact ⟨hx, .refl _⟩

/-- A check that the code makes is the plain one, made the other way round. -/
theorem check {c : Prop} [Decidable c] (exc : Exn) :
    ComesTo p (DonutServer.evaluate (if ¬ c then .error exc else .ok ()) : Code S Unit)
      (ensure c exc) := by
  have hsame : (if ¬ c then .error exc else .ok () : Except Exn Unit) = ensure c exc := by
    unfold ensure
    by_cases hc : c
    · rw [if_neg (not_not.mpr hc), if_pos hc]
    · rw [if_pos hc, if_neg hc]
  rw [hsame]
  exact .evaluate _

end ComesTo

/-! ### What a job reads

The functions of a job, one after the other, each against its plain counterpart.
-/

section Reads

variable {p : Process S} {exposures : Exposures S}

/-- The task of the config that is live. -/
theorem requireTask_comes {task : S.Task} (h : p.task = some task) :
    ComesTo p (requireTask : Code S S.Task) (.ok task) := by
  unfold requireTask
  refine .read ?_
  rw [h]
  exact .pure task

/-- The context of a job, as the plain job puts it together. -/
theorem buildQuantumContext_comes {task : S.Task} {calib : CalibSet S} (h : p.task = some task) :
    ComesTo p (buildQuantumContext env exposures calib)
      (plainContext env (p.stores p.refcatStore).shardIds (p.stores p.refcatStore).shards calib
        exposures) := by
  unfold buildQuantumContext plainContext
  refine .step (requireTask_comes h) fun q hq => ?_
  refine .step .fault fun q hq' => ?_
  obtain ⟨_, rfl⟩ := hq.trans hq'
  refine .bind (.check _) fun _ q hq => .bind (.check _) fun _ q' hq' => ?_
  refine .bind (.evaluate _) fun sample r hr => .bind (.external _) fun v r' hr' => ?_
  refine .bind (.external _) fun needed t ht => .read ?_
  -- All that has changed on the way are the faults, so this is the store of the start.
  obtain ⟨_, rfl⟩ := (((hq.trans hq').trans hr).trans hr').trans ht
  refine .bind (.check _) fun _ _ _ => .bind (.external _) fun inputs _ _ => ?_
  exact .step .fault fun _ _ => .pure _

/-- **What comes before the task** is the plain job of the prepare that is live. -/
theorem beforeQuantum_comes {c : PrepareCommand} (h : Live env c p.toGlobals) :
    ComesTo p (beforeQuantum env exposures) (plainQuantum env c exposures) := by
  obtain ⟨task, hbuild, htask⟩ := h.task
  obtain ⟨ids, hids, hset, hload⟩ := h.refcat
  obtain ⟨backend, calib, hbackend, hcalib, hstore⟩ := h.calibs
  have hplain : plainQuantum env c exposures = (do
      let sample ← sampleOf exposures
      let physicalFilter ← env.physicalLabel sample
      ensure (c.physicalFilter = physicalFilter)
        (wrongFilter physicalFilter (some c.physicalFilter))
      let bundle ← plainContext env (p.stores p.refcatStore).shardIds
        (p.stores p.refcatStore).shards calib exposures
      pure (task, bundle)) := by
    unfold plainQuantum plainCalib
    rw [hbuild, hids, hbackend, hset]
    dsimp only [bind, Except.bind]
    rw [hload, hcalib]
  rw [hplain]
  unfold beforeQuantum
  refine .bind (.evaluate _) fun sample q hq => .bind (.external _) fun physicalFilter r hr => ?_
  obtain ⟨_, rfl⟩ := hq.trans hr
  refine .read ?_
  simp only [hstore]
  refine .bind (.check _) fun _ t ht => ?_
  obtain ⟨_, rfl⟩ := ht
  refine .bind (buildQuantumContext_comes htask) fun bundle u hu => ?_
  obtain ⟨_, rfl⟩ := hu
  exact .step (requireTask_comes htask) fun _ _ => .pure _

/-- The raws of a push are those its layout finds in the block. -/
theorem reconstructExposures_comes {layout : List PartLayout} :
    ComesTo p (reconstructExposures env layout) (bodyExposures env p.world.block layout) := by
  unfold reconstructExposures bodyExposures
  exact .read (.external _)

end Reads

/-! ### What a prepare writes

A prepare writes the globals, so it does not come to a value in the sense above.  What has to be
known of its writes is only that none of them is outside the process; the relation lists the writes
there are, and the functions of a prepare are closed under it.
-/

/-- The world outside is as it was, some faults later. -/
def SameWorld (p q : Process S) : Prop :=
  ∃ k, q.world = { p.world with faults := p.world.faults.drop k }

theorem SameWorld.refl (p : Process S) : SameWorld p p := ⟨0, rfl⟩

theorem SameWorld.trans {p q r : Process S} (h : SameWorld p q) (h' : SameWorld q r) :
    SameWorld p r := by
  obtain ⟨k, hk⟩ := h
  obtain ⟨k', hk'⟩ := h'
  refine ⟨k + k', ?_⟩
  rw [hk', hk, ← List.drop_drop]

/-- Where nothing goes wrong outside now, nothing does later. -/
theorem SameWorld.quiet {p q : Process S} (h : SameWorld p q) (hp : p.world.faults = []) :
    q.world.faults = [] := by
  obtain ⟨k, hk⟩ := h
  rw [hk, hp]
  exact List.drop_nil

theorem Later.sameWorld {p q : Process S} (h : Later p q) : SameWorld p q := by
  obtain ⟨k, rfl⟩ := h
  exact ⟨k, rfl⟩

/-- The writes that a prepare and an activation are made of: a fault is met, a cache turned
over, a store made or refilled, a command entered in the table, an entry activated. -/
inductive Installs (env : Env S) : Process S → Process S → Prop
  | nothing (p : Process S) : Installs env p p
  | more {p q r : Process S} : Installs env p q → Installs env q r → Installs env p r
  | meets (p : Process S) : Installs env p { p with world := p.world.faced }
  | builds (p : Process S) : env.dimensionUniverse = .ok () →
      Installs env p { p with universeBuilt := true }
  | shards (p : Process S) (cache : OrderedDict Nat (Children S)) :
      Installs env p { p with shardCache := cache }
  | detector (p : Process S) (half : Option (CalibId × DetectorCalibs S)) :
      Installs env p { p with detectorCalibCache := half }
  | filtered (p : Process S) (cache : OrderedDict CalibId (FilterCalibs S)) :
      Installs env p { p with filterCalibCache := cache }
  | entries (p : Process S) (cache : OrderedDict PrepareKey (PreparedEntry S))
      (commands : OrderedDict PrepareKey PrepareCommand) :
      Installs env p { p with preparedCache := cache, prepareCommands := commands }
  | makes (p : Process S) : Installs env p { p with
      stores := update p.stores p.nextStore .new, nextStore := p.nextStore + 1 }
  | refills (p : Process S) (store : StoreId) (wanted : Finset Nat) (shards : Children S) :
      Installs env p { p with stores := update p.stores store (refilled wanted shards) }
  | activates (p : Process S) (entry : PreparedEntry S) (calib : CalibSet S) :
      Installs env p (activated entry calib p)

/-- None of them is outside. -/
theorem Installs.sameWorld {p q : Process S} (h : Installs env p q) : SameWorld p q := by
  induction h with
  | more _ _ ih ih' => exact ih.trans ih'
  | meets p =>
      refine ⟨1, ?_⟩
      rw [List.drop_one]
      rfl
  | _ => exact .refl _

/-- Code that makes only these. -/
def InstallsOnly (env : Env S) {α : Type} (m : Code S α) : Prop := Within (Installs env) m

namespace InstallsOnly

variable {α β : Type}

theorem bind {m : Code S α} {f : α → Code S β} (hm : InstallsOnly env m)
    (hf : ∀ a, InstallsOnly env (f a)) : InstallsOnly env (m >>= f) :=
  Within.bind (R := Installs env) (fun _ _ _ => .more) hm hf

theorem pure (a : α) : InstallsOnly env (Pure.pure a : Code S α) := Within.pure .nothing a

theorem throw (exc : Exn) : InstallsOnly env (MonadExcept.throw exc : Code S α) :=
  Within.throw .nothing exc

theorem get : InstallsOnly env (MonadState.get : Code S (Process S)) := Within.get .nothing

theorem evaluate (x : Except Exn α) : InstallsOnly env (DonutServer.evaluate x : Code S α) :=
  Within.ofExcept .nothing x

theorem write {f : Process S → Process S} (hf : ∀ p, Installs env p (f p)) :
    InstallsOnly env (modify f : Code S PUnit) := Within.write hf

/-- What returned is known to have. -/
theorem external_bind {x : Except Exn α} {f : α → Code S β}
    (hf : ∀ a, x = .ok a → InstallsOnly env (f a)) :
    InstallsOnly env (DonutServer.external x >>= f) := by
  intro p
  rw [ends_bind]
  unfold Ends
  rcases hrun : (DonutServer.external x : Code S α).outcome p with ⟨exc | a, q⟩
  · rw [external_outcome] at hrun
    obtain ⟨-, rfl⟩ := Prod.mk.inj hrun
    exact .meets p
  · obtain ⟨hx, rfl⟩ := external_ok hrun
    refine (hf a hx _).mono ?_ ?_
    · exact fun _ _ h => .more (.meets p) h
    · exact fun _ _ h => .more (.meets p) h

theorem external (x : Except Exn α) : InstallsOnly env (DonutServer.external x : Code S α) := by
  intro p
  unfold Ends
  rw [external_outcome]
  split <;> rename_i heq <;> obtain ⟨-, rfl⟩ := Prod.mk.inj heq <;> exact .meets p

/-- However it comes out. -/
theorem leaves {m : Code S α} {x : Except Exn α} {p q : Process S} (h : InstallsOnly env m)
    (hrun : m.outcome p = (x, q)) : Installs env p q := by
  have hends : Ends m p (fun _ q => Installs env p q) fun _ q => Installs env p q := h p
  cases x with
  | ok => exact hends.of_ok hrun
  | error => exact hends.of_error hrun

end InstallsOnly

theorem ensureEachShard_installsOnly (ids : List Nat) : ∀ (shards : Children S) (loaded : Nat),
    InstallsOnly env (ensureEachShard env ids shards loaded) := by
  induction ids with
  | nil =>
      intro shards loaded
      exact .pure _
  | cons id rest ih =>
      intro shards loaded
      unfold ensureEachShard
      refine .bind .get fun p => ?_
      split
      · exact .bind (.external _) fun children => .bind (.write fun p => .shards p _) fun _ => ih _ _
      · exact .bind (.write fun p => .shards p _) fun _ => ih _ _

theorem ensureStore_installsOnly (store : StoreId) (ra dec : ℚ) :
    InstallsOnly env (ensureStore env store ra dec) := by
  have hrefill : ∀ wanted, InstallsOnly env (refillStore env store wanted) := by
    intro wanted
    unfold refillStore ensureShards
    exact .bind (.bind (ensureEachShard_installsOnly _ _ _) fun _ =>
      .bind (.write fun p => .shards p _) fun _ => .pure _) fun _ =>
        .bind (.write fun p => .refills p store wanted _) fun _ => .pure _
  unfold ensureStore
  refine .bind (.external _) fun ids => .bind .get fun before => ?_
  dsimp only
  split
  · exact .bind (.pure _) fun _ => .bind .get fun _ => .pure _
  · exact .bind (hrefill _) fun _ => .bind .get fun _ => .pure _

theorem buildEntry_installsOnly (key : PrepareKey) (c : PrepareCommand) :
    InstallsOnly env (buildEntry env key c) := by
  unfold buildEntry newStore
  exact .bind (.external _) fun _ => .bind (.external _) fun _ => .bind (.evaluate _) fun _ =>
    .bind (.external _) fun _ =>
      .bind (.bind .get fun _ => .bind (.write fun p => .makes p) fun _ => .pure _) fun _ =>
        .bind (ensureStore_installsOnly _ _ _) fun _ => .pure _

theorem obtainEntry_installsOnly (key : PrepareKey) (c : PrepareCommand) :
    InstallsOnly env (obtainEntry env key c) := by
  unfold obtainEntry
  refine .bind .get fun p => ?_
  split
  · exact .bind (buildEntry_installsOnly key c) fun _ => .bind (.write fun p => .entries p _ _)
      fun _ => .pure _
  · exact .bind (.write fun p => .entries p _ _) fun _ =>
      .bind (ensureStore_installsOnly _ _ _) fun _ => .pure _

theorem ensureUniverse_installsOnly : InstallsOnly env (ensureUniverse env) := by
  unfold ensureUniverse
  refine .bind .get fun p => ?_
  split
  · exact .pure _
  · exact .external_bind fun _ hbuilt => .write fun p => .builds p hbuilt

theorem lookUpEntry_installsOnly (c : PrepareCommand) : InstallsOnly env (lookUpEntry env c) := by
  unfold lookUpEntry
  exact .bind ensureUniverse_installsOnly fun _ => .bind (.external _) fun _ =>
    .bind (obtainEntry_installsOnly _ _) fun _ => .pure _

theorem ensureCalib_installsOnly (c : PrepareCommand) : InstallsOnly env (ensureCalib env c) := by
  have hload : ∀ (b : CalibBackend S) (ids : CalibIds) (r : b.Resolved), InstallsOnly env (do
      let detector ← external (b.loadDetector r)
      modify fun p : Process S => { p with detectorCalibCache := some (ids.detector, detector) }
      Pure.pure (detector, false)) := by
    intro b ids r
    exact .bind (.external _) fun _ => .bind (.write fun p => .detector p _) fun _ => .pure _
  have hdetector : ∀ (b : CalibBackend S) ids r, InstallsOnly env (ensureDetectorCalibs b ids r) := by
    intro b ids r
    unfold ensureDetectorCalibs
    refine .bind .get fun p => ?_
    split
    · split
      · exact .pure _
      · exact hload b ids r
    · exact hload b ids r
  have hfilter : ∀ (b : CalibBackend S) ids r detector,
      InstallsOnly env (ensureFilterCalibs b ids r detector) := by
    intro b ids r detector
    unfold ensureFilterCalibs
    refine .bind .get fun p => ?_
    split
    · exact .bind (.write fun p => .filtered p _) fun _ => .pure _
    · exact .bind (.external _) fun _ => .bind (.write fun p => .filtered p _) fun _ => .pure _
  unfold ensureCalib ensureCalibFrom
  split
  · exact .bind (.external _) fun _ => .bind (hdetector _ _ _) fun _ =>
      .bind (hfilter _ _ _ _) fun _ => .pure _
  · exact .throw _

theorem activateEntry_installsOnly (entry : PreparedEntry S) (c : PrepareCommand) :
    InstallsOnly env (activateEntry env entry c) := by
  unfold activateEntry
  exact .bind (ensureCalib_installsOnly c) fun r =>
    .bind (.write fun p => .activates p entry r.1) fun _ => .pure _

theorem ensurePreparedForPush_installsOnly (k : PrepareKey) :
    InstallsOnly env (ensurePreparedForPush env k) := by
  unfold ensurePreparedForPush
  refine .bind .get fun p => ?_
  split
  · exact .throw _
  · split
    · exact .bind (.write fun p => .entries p _ _) fun _ =>
        .bind (activateEntry_installsOnly _ _) fun _ => .pure _
    · exact .bind (buildEntry_installsOnly _ _) fun _ => .bind (.write fun p => .entries p _ _) fun _ =>
        .bind (activateEntry_installsOnly _ _) fun _ => .pure _

/-! ### A job agrees with the plain one

`Agrees` puts the two together: code that reads and writes, which comes to a plain value seen
through `view`.  It composes like `ComesTo`, with one more rule for a write, after which the state
is a known one.
-/

/-- Run from `p`, whatever it writes, the code comes to what `view` makes of `x`, and the world
outside is as it was; where it raises anything else, something went wrong outside. -/
def Agrees {α β : Type} (p : Process S) (m : Code S α) (view : α → β) (x : Except Exn β) : Prop :=
  Ends m p (fun a q => x = .ok (view a) ∧ SameWorld p q)
    (fun exc _ => p.world.faults = [] → x = .error exc)

section Agrees

variable {α β γ δ : Type} {p : Process S}

theorem ComesTo.agrees {m : Code S α} {x : Except Exn α} (h : ComesTo p m x) : Agrees p m id x :=
  h.mono (fun _ _ h => ⟨h.1, h.2.sameWorld⟩) fun _ _ h => h

/-- What the first half comes to, the second goes on from. -/
theorem Agrees.bind {m : Code S α} {f : α → Code S γ} {view : α → β} {view' : γ → δ}
    {x : Except Exn β} {y : β → Except Exn δ} (hm : Agrees p m view x)
    (hf : ∀ a q, m.outcome p = (.ok a, q) → x = .ok (view a) → Agrees q (f a) view' (y (view a))) :
    Agrees p (m >>= f) view' (x >>= y) := by
  refine (ends_bind ..).mpr (hm.traced.mono ?_ ?_)
  · intro a q hends
    obtain ⟨⟨hx, hq⟩, hrun⟩ := hends
    refine (hf a q hrun hx).mono ?_ ?_
    · intro c t ht
      rw [hx]
      exact ⟨ht.1, hq.trans ht.2⟩
    · intro exc _ h hp
      rw [hx]
      exact h (hq.quiet hp)
  · intro exc _ h hp
    rw [h.1 hp]
    rfl

/-- Code that reads first. -/
theorem Agrees.after {m : Code S α} {f : α → Code S γ} {view : γ → δ} {x : Except Exn α}
    {y : α → Except Exn δ} (hm : ComesTo p m x)
    (hf : ∀ a q, Later p q → x = .ok a → Agrees q (f a) view (y a)) :
    Agrees p (m >>= f) view (x >>= y) := by
  refine Agrees.bind hm.agrees fun a q hrun hx => ?_
  exact hf a q ((show Ends m p _ _ from hm).of_ok hrun).2 hx

/-- Code that writes, and what is known of the state it leaves. -/
theorem Agrees.write {f : Process S → Process S} {m : PUnit → Code S γ} {view : γ → δ}
    {x : Except Exn δ} (hf : SameWorld p (f p)) (hm : Agrees (f p) (m ⟨⟩) view x) :
    Agrees p (modify f >>= m) view x := by
  unfold Agrees
  rw [ends_bind, ends_modify]
  exact hm.mono (fun _ _ h => ⟨h.1, hf.trans h.2⟩) fun _ _ h hp => h (hf.quiet hp)

/-- What is read is what is there. -/
theorem Agrees.read {m : Process S → Code S γ} {view : γ → δ} {x : Except Exn δ}
    (hm : Agrees p (m p) view x) : Agrees p (get >>= m) view x := by
  unfold Agrees
  rw [ends_bind, ends_get]
  exact hm

end Agrees

variable {p : Process S} {exposures : Exposures S} {jobId : JobId} {numWorkers : Option Int}

/-- **A job runs its task** on what came before it. -/
theorem runJob_agrees {x : Except Exn (S.Task × QuantumBundle S)}
    (h : ComesTo p (beforeQuantum env exposures) x) :
    Agrees p (runJob env jobId exposures numWorkers) id (do
      let (task, bundle) ← x
      p.world.quantum task bundle numWorkers) := by
  unfold runJob
  refine Agrees.after h fun r q hq _ => Agrees.read ?_
  obtain ⟨k, rfl⟩ := hq
  refine (ends_bind ..).mpr ((ComesTo.external _).mono ?_ fun _ _ h => h)
  intro out t hends
  obtain ⟨hrun, hlater⟩ := hends
  exact ⟨hrun, hlater.sameWorld.trans ⟨0, rfl⟩⟩

/-- The run of some raws, wherever they come from and whatever quantum they make. -/
def plainJob (world : World S) (raws : Except Exn (Exposures S))
    (quantum : Exposures S → Except Exn (S.Task × QuantumBundle S)) (numWorkers : Option Int) :
    Except Exn JobOutput := do
  let exposures ← raws
  let (task, bundle) ← quantum exposures
  world.quantum task bundle numWorkers

variable {quantum : Exposures S → Except Exn (S.Task × QuantumBundle S)}

/-- A job run some faults later. -/
theorem runJob_later {q : Process S}
    (h : ∀ exposures q, Later p q → ComesTo q (beforeQuantum env exposures) (quantum exposures))
    (hq : Later p q) : Agrees q (runJob env jobId exposures numWorkers) id (do
      let (task, bundle) ← quantum exposures
      p.world.quantum task bundle numWorkers) := by
  have hrun : Agrees q (runJob env jobId exposures numWorkers) id _ := runJob_agrees (h exposures q hq)
  obtain ⟨k, rfl⟩ := hq
  exact hrun

/-- **A push computes** the job of the raws in its block. -/
theorem runPush_agrees {layout : List PartLayout}
    (h : ∀ exposures q, Later p q → ComesTo q (beforeQuantum env exposures) (quantum exposures)) :
    Agrees p (runPush env jobId layout numWorkers) id
      (plainJob p.world (bodyExposures env p.world.block layout) quantum numWorkers) :=
  .after reconstructExposures_comes fun _ _ hq _ => runJob_later h hq

/-- **An ingest computes** that of the raws in its directory. -/
theorem runIngest_agrees {directory : String}
    (h : ∀ exposures q, Later p q → ComesTo q (beforeQuantum env exposures) (quantum exposures)) :
    Agrees p (runIngest env jobId directory numWorkers) id
      (plainJob p.world (p.world.raws directory numWorkers) quantum numWorkers) := by
  unfold runIngest
  refine .read (.after (.external _) fun exposures q hq _ => ?_)
  refine (ends_bind ..).mpr ((runJob_later h hq).mono ?_ fun _ _ h => h)
  intro out t hends
  obtain ⟨hout, ht⟩ := hends
  refine (ComesTo.step .fault fun _ _ => .pure out).mono ?_ ?_
  · intro out' u hu
    rw [← Except.ok.inj hu.1]
    exact ⟨hout, ht.trans hu.2.sameWorld⟩
  · exact fun exc _ hfail hp => absurd (hfail (ht.quiet hp)) (by simp)

/-- Under a live config the quantum is that of its prepare. -/
theorem Live.before {c : PrepareCommand} (h : Live env c p.toGlobals) (exposures : Exposures S)
    (q : Process S) (hq : Later p q) :
    ComesTo q (beforeQuantum env exposures) (plainQuantum env c exposures) :=
  beforeQuantum_comes (hq.globals ▸ h)

/-- A job of these raws under the config of any prepare with the key. -/
def KeyedRun (env : Env S) (world : World S) (k : PrepareKey) (exposures : Exposures S)
    (numWorkers : Option Int) (out : JobOutput) : Prop :=
  ∀ c, Keyed env k c → plainRun env world c exposures numWorkers = .ok out

theorem SameWorld.plainRun {q : Process S} (h : SameWorld p q) (c : PrepareCommand) :
    plainRun env q.world c exposures numWorkers = plainRun env p.world c exposures numWorkers := by
  obtain ⟨k, hk⟩ := h
  rw [hk]
  rfl

/-! ### The answers to a job

What a front-end gets of all this is a message.  A message that is no failure says that the body
returned, so it tells what the plain job came to.
-/

/-- The activation of a job that names its key. -/
theorem activateFor_live {k : PrepareKey} (hrefs : env.RefsIdentify) (hp : Cached env p.toGlobals) :
    Ends (activateFor env (some k)) p
      (fun _ q => (∃ c, Keyed env k c) ∧ (∀ c, Keyed env k c → Live env c q.toGlobals) ∧
        SameWorld p q)
      (fun _ _ => True) := by
  unfold activateFor
  rw [ends_bind]
  refine (ensurePreparedForPush_ends hrefs hp).traced.mono ?_ fun _ _ _ => trivial
  intro _ q hends
  obtain ⟨⟨-, -, c, hc, hlive⟩, hrun⟩ := hends
  exact ⟨⟨c, hc⟩, fun c' hc' => hlive.congr hrefs hc hc',
    ((ensurePreparedForPush_installsOnly k).leaves hrun).sameWorld⟩

/-- A message that is no failure, of a command whose body says what it comes to: the body has
returned, and so has the sending. -/
theorem attempt_ok {command : Command} {Q : Msg → Process S → Prop}
    (h : Ends (body env command) p Q fun _ _ => True)
    (hok : (attempt env command p).1.ok = true) : ∃ q, Q (attempt env command p).1 q := by
  refine attempt_of_ends (P := fun msg _ => msg.ok = true → ∃ q, Q msg q) h ?_ ?_ ?_ hok
  · exact fun msg q _ hq _ => ⟨q, hq⟩
  · exact fun _ exc _ _ _ hfail => absurd (hfail.symm.trans (failure_not_ok command exc)) (by simp)
  · exact fun exc _ _ hfail => absurd (hfail.symm.trans (failure_not_ok command exc)) (by simp)

/-- A job goes on from its activation to its raws and its run. -/
theorem attempt_job {command : Command} {k : PrepareKey}
    (raws : World S → Except Exn (Exposures S)) (run : Code S JobOutput) (hrefs : env.RefsIdentify)
    (hp : Cached env p.toGlobals)
    (hcommand : body env command = activateFor env (some k) >>= fun _ => run >>= fun out =>
      pure (.ran out))
    (hraws : ∀ q, SameWorld p q → raws q.world = raws p.world)
    (hrun : ∀ c q, Live env c q.toGlobals →
      Agrees q run id (plainJob q.world (raws q.world) (plainQuantum env c) numWorkers))
    (hok : (attempt env command p).1.ok = true) :
    ∃ out exposures, (attempt env command p).1 = .ran out ∧ raws p.world = .ok exposures ∧
      KeyedRun env p.world k exposures numWorkers out := by
  have hbody : Ends (body env command) p
      (fun msg _ => ∃ out exposures, msg = .ran out ∧ raws p.world = .ok exposures ∧
        KeyedRun env p.world k exposures numWorkers out) (fun _ _ => True) := by
    rw [hcommand, ends_bind]
    refine (activateFor_live hrefs hp).mono ?_ fun _ _ h => h
    intro _ q hends
    obtain ⟨⟨c₀, hc₀⟩, hlive, hworld⟩ := hends
    -- What it comes to under one prepare with the key, it comes to under each.
    have hgives : ∀ out t, run.outcome q = (.ok out, t) → ∀ c, Keyed env k c →
        ∃ exposures, raws p.world = .ok exposures ∧
          plainRun env p.world c exposures numWorkers = .ok out := by
      intro out t hout c hc
      have hplain := ((hrun c q (hlive c hc)).of_ok hout).1
      obtain ⟨exposures, hload, hcomes⟩ := Except.bind_eq_ok.mp hplain
      exact ⟨exposures, hraws q hworld ▸ hload, (hworld.plainRun c).symm.trans hcomes⟩
    rw [ends_bind]
    unfold Ends
    rcases hout : run.outcome q with ⟨_ | out, t⟩
    · trivial
    · obtain ⟨exposures, hload, -⟩ := hgives out t hout c₀ hc₀
      refine ⟨out, exposures, rfl, hload, fun c hc => ?_⟩
      obtain ⟨exposures', hload', hcomes⟩ := hgives out t hout c hc
      obtain rfl := Except.ok.inj (hload.symm.trans hload')
      exact hcomes
  exact (attempt_ok hbody hok).elim fun _ h => h

/-- **A push that is answered with a result ran the plain job** of its own key on the raws in
the block. -/
theorem attempt_push {layout : List PartLayout} {k : PrepareKey} (hrefs : env.RefsIdentify)
    (hp : Cached env p.toGlobals)
    (hok : (attempt env (.push jobId layout numWorkers (some k)) p).1.ok = true) :
    ∃ out exposures, (attempt env (.push jobId layout numWorkers (some k)) p).1 = .ran out ∧
      bodyExposures env p.world.block layout = .ok exposures ∧
        KeyedRun env p.world k exposures numWorkers out := by
  refine attempt_job (fun world => bodyExposures env world.block layout)
    (runPush env jobId layout numWorkers) hrefs hp rfl ?_ ?_ hok
  · intro q hq
    obtain ⟨_, hq⟩ := hq
    rw [hq]
  · exact fun c q h => runPush_agrees h.before

/-- **An ingest that is answered with a result ran the plain job** of its own key on the raws
that were read for it. -/
theorem attempt_ingest {directory : String} {k : PrepareKey} (hrefs : env.RefsIdentify)
    (hp : Cached env p.toGlobals)
    (hok : (attempt env (.ingest jobId directory numWorkers (some k)) p).1.ok = true) :
    ∃ out exposures, (attempt env (.ingest jobId directory numWorkers (some k)) p).1 = .ran out ∧
      p.world.raws directory numWorkers = .ok exposures ∧
        KeyedRun env p.world k exposures numWorkers out := by
  refine attempt_job (fun world => world.raws directory numWorkers)
    (runIngest env jobId directory numWorkers) hrefs hp rfl ?_ ?_ hok
  · intro q hq
    obtain ⟨_, hq⟩ := hq
    rw [hq]
  · exact fun c q h => runIngest_agrees h.before

/-- **A prepare that is answered with success** is answered with its own key. -/
theorem attempt_prepare {c : PrepareCommand} (hrefs : env.RefsIdentify)
    (hp : Cached env p.toGlobals) (hok : (attempt env (.prepare c) p).1.ok = true) :
    ∃ timings dump k, (attempt env (.prepare c) p).1 = .prepared timings dump k ∧
      Keyed env k c := by
  have hbody : Ends (body env (.prepare c)) p
      (fun msg _ => ∃ timings dump k, msg = .prepared timings dump k ∧ Keyed env k c)
      (fun _ _ => True) := by
    show Ends (ensurePrepared env c >>= _) _ _ _
    rw [ends_bind]
    refine (ensurePrepared_ends hrefs hp).mono ?_ fun _ _ _ => trivial
    exact fun r _ h => ⟨r.2, _, r.1, rfl, h.2.1⟩
  exact (attempt_ok hbody hok).elim fun _ h => h

end DonutServer
