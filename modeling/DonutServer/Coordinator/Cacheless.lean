/-
A coordinator without caches, and that the real one is no different.

All that a coordinator has to remember between two commands is which keys were prepared and
whose config is live.  `PlainCoordinator` remembers just that.  It builds the task, loads the
shards and resolves the calibs anew for every command, never runs out of anything and evicts
nothing.

The real coordinator answers as it does.  A command on which nothing goes wrong outside gets
the same answer, errors and numbers included, but for what the answer says of what was reused.
Where something does go wrong, either that makes no difference or the answer is a failure, and
what is left behind is what the plain coordinator might have got to by then.
-/
import DonutServer.Coordinator.Plain

namespace DonutServer

open Effect Function

variable {S : Stack} (env : Env S)

/-! ### What a prepare reports, on nothing cached

The timings of a prepare tell how much of it was found in a cache.  That is the one thing the
caches are allowed to change in an answer, so answers are compared after everything is reported as
loaded.
-/

/-- The report on the refcat, as if all of it had been loaded. -/
def RefcatTiming.cold (t : RefcatTiming) : RefcatTiming :=
  { t with reused := false, nShardsLoaded := t.nLevel5Files, nShardsReused := 0 }

/-- The report on the calibs, as if both halves had been. -/
def CalibTiming.cold (t : CalibTiming) : CalibTiming :=
  { t with detectorReused := false, filterReused := false }

/-- The report of a prepare that found nothing in any cache. -/
def PrepareTimings.cold (t : PrepareTimings) : PrepareTimings :=
  { t with
    taskReused := false
    refcatReused := false
    nShardsLoaded := t.nLevel5Files
    nShardsReused := 0
    detectorReused := false
    filterReused := false }

/-- An answer, but for what it says of what was reused. -/
def Msg.cold : Msg → Msg
  | .prepared timings dump key => .prepared timings.cold dump key
  | msg => msg

/-! ### Building everything anew

What the plain coordinator does for a prepare, as functions of the command and of what is outside.
They raise where the real one raises, in the same order, because the errors are part of the answer.
-/

/-- The shards of a pointing, and the report on them. -/
def plainRefcat (ra dec : ℚ) : Except Exn RefcatTiming := do
  let ids ← shardIdsForPointing env ra dec
  let shards ← loadAndReshard env (sortedIds ids.toFinset)
  pure
    { reused := false
      nLevel5Files := ids.toFinset.card
      nLevel7Shards := shards.size
      nRows := (shards.entries.map fun e => e.2.length).sum
      nShardsLoaded := ids.toFinset.card
      nShardsReused := 0
      boresight := (ra, dec) }

/-- What a prepare tells of its entry. -/
structure PlainEntry where
  dump : String
  nOverrides : Nat
  refcat : RefcatTiming

/-- The entry of a prepare. -/
def plainEntry (c : PrepareCommand) : Except Exn PlainEntry := do
  let (_, dump) ← buildTask env c.configOverrides
  env.warmUpParquet
  let dir ← stampDir env
  env.makedirs dir
  let refcat ← plainRefcat env c.boresightRa c.boresightDec
  pure ⟨dump, c.configOverrides.length, refcat⟩

/-- A prepare up to its calibs. -/
def plainLookUp (c : PrepareCommand) : Except Exn (PrepareKey × PlainEntry) := do
  env.dimensionUniverse
  let key ← prepareKey env c
  let entry ← plainEntry env c
  pure (key, entry)

/-- The report on calibs that were loaded for a prepare. -/
def calibReport (c : PrepareCommand) (calib : CalibSet S) : CalibTiming where
  detectorReused := false
  filterReused := false
  backend := env.environOr "DONUT_SERVER_CALIB_BACKEND" "files"
  nDetectors := calib.detector.detectorIds.length
  nIntrinsicZernikes := calib.filtered.intrinsicZernikesByName.size
  physicalFilter := calib.filtered.physicalFilter
  calibTime := c.calibTime

/-- What a prepare reports. -/
def plainReport (c : PrepareCommand) (entry : PlainEntry) (calib : CalibSet S) : PrepareTimings :=
  let report := calibReport env c calib
  { taskReused := false
    nOverrides := entry.nOverrides
    refcatReused := entry.refcat.reused
    nLevel5Files := entry.refcat.nLevel5Files
    nLevel7Shards := entry.refcat.nLevel7Shards
    nRows := entry.refcat.nRows
    nShardsLoaded := entry.refcat.nShardsLoaded
    nShardsReused := entry.refcat.nShardsReused
    boresight := entry.refcat.boresight
    detectorReused := report.detectorReused
    filterReused := report.filterReused
    backend := report.backend
    nDetectors := report.nDetectors
    nIntrinsicZernikes := report.nIntrinsicZernikes
    physicalFilter := report.physicalFilter
    calibTime := report.calibTime }

/-- What stands before the task of a job where nothing was ever prepared: the raws are put
together, and then there is no task to run them. -/
def unpreparedQuantum (exposures : Exposures S) : Except Exn (S.Task × QuantumBundle S) := do
  let sample ← sampleOf exposures
  let physicalFilter ← env.physicalLabel sample
  .error (wrongFilter physicalFilter none)

/-! ### The plain coordinator

Its state is which keys were prepared, each with a prepare that has it, and which prepare is live.
That is what the front-ends can know of a coordinator: a key that was prepared may be named by a
job later, and a job that names none runs under the config that is live.  A command that fails may
have got as far as making its key known, or its config live, and `Reaches` says how far.
-/

/-- The keys that were prepared, each with a prepare that has it, and the prepare whose config
is live. -/
structure PlainCoordinator where
  known : PrepareKey → Option PrepareCommand
  live : Option PrepareCommand

namespace PlainCoordinator

/-- Nothing prepared. -/
def started : PlainCoordinator := ⟨fun _ => none, none⟩

/-- A key is known from here on. -/
def know (key : PrepareKey) (c : PrepareCommand) (s : PlainCoordinator) : PlainCoordinator :=
  { s with known := update s.known key (some c) }

/-- The config of a key is live from here on. -/
def setLive (c : PrepareCommand) (s : PlainCoordinator) : PlainCoordinator :=
  { s with live := some c }

/-- A prepare: its key is known as soon as its entry is there, and its config is live once its
calibs are. -/
def prepare (c : PrepareCommand) (s : PlainCoordinator) : Msg × PlainCoordinator :=
  match plainLookUp env c with
  | .error exc => (failure (.prepare c) exc, s)
  | .ok (key, entry) =>
      match plainCalib env c with
      | .error exc => (failure (.prepare c) exc, s.know key c)
      | .ok calib =>
          (.prepared (plainReport env c entry calib) entry.dump key, (s.know key c).setLive c)

/-- The config a job names is made live, if it names one. -/
def activate (key : Option PrepareKey) (s : PlainCoordinator) : Except Exn PlainCoordinator :=
  match key with
  | none => .ok s
  | some key =>
      match s.known key with
      | none => .error (neverPrepared key)
      | some c => (plainCalib env c).map fun _ => s.setLive c

/-- The task and the quantum of some raws under the live config. -/
def quantum (s : PlainCoordinator) (exposures : Exposures S) :
    Except Exn (S.Task × QuantumBundle S) :=
  match s.live with
  | some c => plainQuantum env c exposures
  | none => unpreparedQuantum env exposures

/-- A job, whose config stays live whatever becomes of it. -/
def job (world : World S) (command : Command) (raws : Except Exn (Exposures S))
    (numWorkers : Option Int) (s : PlainCoordinator) : Msg × PlainCoordinator :=
  match s.activate env command.preparedKey with
  | .error exc => (failure command exc, s)
  | .ok s =>
      match plainJob world raws (s.quantum env) numWorkers with
      | .error exc => (failure command exc, s)
      | .ok out => (.ran out, s)

/-- **What the plain coordinator makes of a command.** -/
def next (world : World S) (command : Command) (s : PlainCoordinator) : Msg × PlainCoordinator :=
  match command with
  | .prepare c => s.prepare env c
  | .resolve directory =>
      match world.headers directory with
      | .ok exposure => (.resolved exposure, s)
      | .error exc => (failure command exc, s)
  | .push _ layout numWorkers _ =>
      s.job env world command (bodyExposures env world.block layout) numWorkers
  | .ingest _ directory numWorkers _ =>
      s.job env world command (world.raws directory numWorkers) numWorkers
  | .shutdown => (.ack, s)
  | .other cmd => (.failed s!"unknown cmd {PyText.reprText cmd}" none, s)

variable {env}

/-- A job that names a key nobody prepared comes to an error. -/
theorem activate_unknown {s : PlainCoordinator} {k : PrepareKey} (h : s.known k = none) :
    s.activate env (some k) = .error (neverPrepared k) := by
  unfold activate
  simp only [h]

/-- A job that names a key somebody prepared runs under that prepare's config. -/
theorem activate_known {s : PlainCoordinator} {k : PrepareKey} {c : PrepareCommand}
    (h : s.known k = some c) :
    s.activate env (some k) = (plainCalib env c).map fun _ => s.setLive c := by
  unfold activate
  simp only [h]

/-- How far it may have got with a command that came to nothing. -/
inductive Reaches (env : Env S) (s : PlainCoordinator) (command : Command) :
    PlainCoordinator → Prop
  | nowhere : Reaches env s command s
  | known (c : PrepareCommand) (key : PrepareKey) (entry : PlainEntry) : command = .prepare c →
      plainLookUp env c = .ok (key, entry) → Reaches env s command (s.know key c)
  | prepared (c : PrepareCommand) (key : PrepareKey) (entry : PlainEntry) (calib : CalibSet S) :
      command = .prepare c → plainLookUp env c = .ok (key, entry) → plainCalib env c = .ok calib →
      Reaches env s command ((s.know key c).setLive c)
  | activated (c : PrepareCommand) (key : PrepareKey) (calib : CalibSet S) :
      command.preparedKey = some key → s.known key = some c → plainCalib env c = .ok calib →
      Reaches env s command (s.setLive c)

/-- A command is served, or something goes wrong outside and it fails on the way. -/
inductive Step (env : Env S) (world : World S) (s : PlainCoordinator) (command : Command) :
    Msg → PlainCoordinator → Prop
  | served : Step env world s command (s.next env world command).1 (s.next env world command).2
  | outage (exc : Exn) {s' : PlainCoordinator} : world.faults ≠ [] → s.Reaches env command s' →
      Step env world s command (failure command exc) s'

theorem Step.of_next {world : World S} {s s' : PlainCoordinator} {command : Command} {msg : Msg}
    (h : s.next env world command = (msg, s')) : Step env world s command msg s' := by
  have hserved : Step env world s command (s.next env world command).1
      (s.next env world command).2 := .served
  rwa [h] at hserved

/-- The answers to one command after another. -/
inductive Answers (env : Env S) : PlainCoordinator → List (Command × World S) → List Msg → Prop
  | done (s : PlainCoordinator) : Answers env s [] []
  | next {s s' : PlainCoordinator} {command : Command} {world : World S} {msg : Msg}
      {rest : List (Command × World S)} {msgs : List Msg} :
      Step env world s command msg s' → Answers env s' rest msgs →
      Answers env s ((command, world) :: rest) (msg :: msgs)

end PlainCoordinator

variable {env}

/-! ### What a prepare computes

For each function of a prepare one lemma says that it agrees with its plain counterpart: where it
returns it gives what that gives, where nothing goes wrong outside it also raises what that raises,
and it writes only what a prepare may write.  `Agrees` is these three, and composes along the code.

What is found in a cache needs the invariants of the caches here.  A hit is as good as a load
because the cache holds what a load would give.
-/

/-- The universe is built where its flag is set, and stores count their rows. -/
structure Steady (env : Env S) (g : Globals S) : Prop where
  built : g.universeBuilt = true → env.dimensionUniverse = .ok ()
  rows : ∀ i, (g.stores i).nRows = ((g.stores i).shards.entries.map fun e => e.2.length).sum

theorem Installs.steady {p q : Process S} (h : Installs env p q) (hp : Steady env p.toGlobals) :
    Steady env q.toGlobals := by
  have hfill : ∀ (stores : StoreId → RefCatStore S) (store : StoreId) (now : RefCatStore S),
      (∀ i, (stores i).nRows = ((stores i).shards.entries.map fun e => e.2.length).sum) →
      now.nRows = (now.shards.entries.map fun e => e.2.length).sum →
      ∀ i, (update stores store now i).nRows =
        ((update stores store now i).shards.entries.map fun e => e.2.length).sum := by
    intro stores store now hrows hnow i
    by_cases hi : i = store
    · rw [hi, update_self]
      exact hnow
    · rw [update_of_ne hi]
      exact hrows i
  induction h with
  | more _ _ ih ih' => exact ih' (ih hp)
  | builds p hbuilt => exact ⟨fun _ => hbuilt, hp.rows⟩
  | makes p => exact ⟨hp.built, hfill _ _ _ hp.rows rfl⟩
  | refills p store wanted shards => exact ⟨hp.built, hfill _ _ _ hp.rows rfl⟩
  | _ => exact ⟨hp.built, hp.rows⟩

section Computes

variable {p : Process S} {k : PrepareKey} {c : PrepareCommand}

/-- What is known of a run that returned, what it comes to where nothing goes wrong, and that
it does only what a prepare does, make it agree. -/
theorem Agrees.of_outcome {α β : Type} {m : Code S α} {view : α → β} {x : Except Exn β}
    (hinstalls : InstallsOnly env m) (hok : ∀ a q, m.outcome p = (.ok a, q) → x = .ok (view a))
    (hquiet : p.world.faults = [] → (m.outcome p).1.map view = x) : Agrees p m view x := by
  unfold Agrees Ends
  rcases hrun : m.outcome p with ⟨exc | a, q⟩
  · intro hp
    have h := hquiet hp
    rw [hrun] at h
    exact h.symm
  · exact ⟨hok a q hrun, (hinstalls.leaves hrun).sameWorld⟩

/-- A call out of the process, of which what is kept is no more than what it gave. -/
theorem Agrees.loads {α γ : Type} {x : Except Exn α} {m : α → Code S γ} {view : γ → α}
    (hm : ∀ a q, Agrees q (m a) view (.ok a)) : Agrees p (external x >>= m) view x := by
  refine (ends_bind ..).mpr ((ComesTo.external x).mono ?_ fun _ _ h => h)
  intro a q hends
  obtain ⟨hx, hq⟩ := hends
  refine (hm a q).mono ?_ fun exc _ h hp => absurd (h (hq.quiet hp)) (by simp)
  intro r t ht
  exact ⟨hx.trans ht.1, hq.sameWorld.trans ht.2⟩

theorem ensureShards_agrees {wanted : Finset Nat}
    (hp : p.shardCache.Forall fun id children => reshardOne env id = .ok children) :
    Agrees p (ensureShards env wanted) Prod.fst (loadAndReshard env (sortedIds wanted)) := by
  have hinstalls : InstallsOnly env (ensureShards env wanted) := by
    unfold ensureShards
    exact .bind (ensureEachShard_installsOnly _ _ _) fun _ =>
      .bind (.write fun p => .shards p _) fun _ => .pure _
  refine .of_outcome hinstalls ?_ fun hquiet => ensureShards_outcome wanted hquiet hp
  intro r q hrun
  exact ((ensureShards_ends (.refl env) wanted p hp).of_ok hrun).2

/-- **Ensuring a store** comes to loading the shards of the pointing, whether they are loaded or
were there. -/
theorem ensureStore_agrees {store : StoreId} {ra dec : ℚ}
    (hp : p.shardCache.Forall fun id children => reshardOne env id = .ok children)
    (hfilled : (p.stores store).Filled env) :
    Agrees p (ensureStore env store ra dec) RefcatTiming.cold (plainRefcat env ra dec) := by
  unfold ensureStore plainRefcat
  refine .after (.external _) fun ids q hq _ => .read ?_
  obtain ⟨n, rfl⟩ := hq
  by_cases hreused : ids.toFinset = (p.stores store).shardIds
  · have hload : loadAndReshard env (sortedIds ids.toFinset) = .ok (p.stores store).shards := by
      rw [hreused]
      exact hfilled.loaded
    simp only [hreused, decide_true, if_true]
    rw [← hreused, hload, hreused]
    refine ⟨?_, .refl _⟩
    show Except.ok _ = Except.ok _
    rw [← hfilled.rows]
    rfl
  · simp only [hreused, decide_false, if_false]
    unfold refillStore
    rw [bind_assoc]
    refine Agrees.bind (ensureShards_agrees (p := { p with world := _ }) hp) fun r t _ _ => ?_
    rw [bind_assoc]
    refine .write ⟨0, rfl⟩ ?_
    rw [pure_bind]
    refine .read ⟨?_, .refl _⟩
    simp only [update_self]
    rfl

theorem Keyed.nOverrides (h : Keyed env k c) : k.task.length = c.configOverrides.length := by
  obtain ⟨_, _, rfl⟩ := h.parts
  exact List.length_map _

/-- Building an entry comes to what a plain one is made of. -/
theorem buildEntry_agrees (hk : Keyed env k c) (hp : Cached env p.toGlobals) :
    Agrees p (buildEntry env k c) (fun r => ⟨r.1.taskDump, r.2.1.nOverrides, r.2.2.cold⟩)
      (plainEntry env c) := by
  unfold buildEntry plainEntry newStore
  refine .after (.external _) fun r q hq _ => .after (.external _) fun _ q' hq' _ => ?_
  refine .after (.evaluate _) fun dir t ht _ => .after (.external _) fun _ t' ht' _ => ?_
  obtain ⟨n, rfl⟩ := ((hq.trans hq').trans ht).trans ht'
  rw [bind_assoc]
  refine .read ?_
  rw [bind_assoc]
  refine .write ⟨0, rfl⟩ ?_
  rw [pure_bind]
  have hfilled : RefCatStore.Filled env (update p.stores p.nextStore .new p.nextStore) := by
    rw [update_self]
    exact RefCatStore.filled_new
  refine Agrees.bind (ensureStore_agrees hp.shards hfilled) fun refcat u _ _ => ?_
  refine ⟨?_, .refl _⟩
  rw [← hk.nOverrides]
  rfl

/-- What a plain entry that was built went through. -/
theorem plainEntry_eq_ok {entry : PlainEntry} : plainEntry env c = .ok entry ↔
    ∃ r dir refcat, buildTask env c.configOverrides = .ok r ∧ env.warmUpParquet = .ok () ∧
      stampDir env = .ok dir ∧ env.makedirs dir = .ok () ∧
      plainRefcat env c.boresightRa c.boresightDec = .ok refcat ∧
      entry = ⟨r.2, c.configOverrides.length, refcat⟩ := by
  unfold plainEntry
  constructor
  · intro h
    obtain ⟨r, htask, h⟩ := Except.bind_eq_ok.mp h
    obtain ⟨_, hwarm, h⟩ := Except.bind_eq_ok.mp h
    obtain ⟨dir, hdir, h⟩ := Except.bind_eq_ok.mp h
    obtain ⟨_, hmake, h⟩ := Except.bind_eq_ok.mp h
    obtain ⟨refcat, hrefcat, h⟩ := Except.bind_eq_ok.mp h
    exact ⟨r, dir, refcat, htask, hwarm, hdir, hmake, hrefcat, (Except.ok.inj h).symm⟩
  · intro h
    obtain ⟨r, dir, refcat, htask, hwarm, hdir, hmake, hrefcat, rfl⟩ := h
    rw [htask, hwarm, hdir]
    dsimp only [bind, Except.bind]
    rw [hmake, hrefcat]
    rfl

/-- Once a plain entry can be built, all that is left of it to find out is its refcat. -/
theorem plainEntry_known {entry : PlainEntry} (h : plainEntry env c = .ok entry) :
    plainEntry env c = (plainRefcat env c.boresightRa c.boresightDec).map
      fun refcat => ⟨entry.dump, c.configOverrides.length, refcat⟩ := by
  obtain ⟨r, dir, refcat, -, -, -, -, hrefcat, rfl⟩ := plainEntry_eq_ok.mp h
  rw [h, hrefcat]
  rfl

/-- Prepares with one key have their entries at one time. -/
theorem plainEntry_congr {c' : PrepareCommand} {entry : PlainEntry} (hk : Keyed env k c)
    (hk' : Keyed env k c') (h : plainEntry env c = .ok entry) :
    ∃ entry', plainEntry env c' = .ok entry' := by
  obtain ⟨ids, hids, rfl⟩ := hk.parts
  obtain ⟨ids', hids', heq⟩ := hk'.parts
  obtain ⟨hover, -, hset, -⟩ := PrepareKey.mk.inj heq
  obtain ⟨r, dir, refcat, htask, hwarm, hdir, hmake, hrefcat, -⟩ := plainEntry_eq_ok.mp h
  obtain ⟨ids₀, hids₀, hrefcat⟩ := Except.bind_eq_ok.mp hrefcat
  obtain rfl := Except.ok.inj (hids.symm.trans hids₀)
  obtain ⟨shards, hload, -⟩ := Except.bind_eq_ok.mp hrefcat
  rw [buildTask_congr env hover] at htask
  rw [hset] at hload
  have hrefcat' : ∃ refcat', plainRefcat env c'.boresightRa c'.boresightDec = .ok refcat' := by
    unfold plainRefcat
    rw [hids']
    exact ⟨_, Except.bind_eq_ok.mpr ⟨ids', rfl, Except.bind_eq_ok.mpr ⟨shards, hload, rfl⟩⟩⟩
  obtain ⟨refcat', hrefcat'⟩ := hrefcat'
  exact ⟨_, plainEntry_eq_ok.mpr ⟨r, dir, refcat', htask, hwarm, hdir, hmake, hrefcat', rfl⟩⟩

/-- **Getting an entry comes to building it.** On a hit it is the invariant that says so: the entry
was built for a prepare with this key, its store holds the key's shards, and a build is a function
of the key. -/
theorem obtainEntry_agrees (hk : Keyed env k c) (hp : Cached env p.toGlobals)
    (hsteady : Steady env p.toGlobals)
    (hknown : k ∈ p.prepareCommands.keys → ∃ entry, plainEntry env c = .ok entry) :
    Agrees p (obtainEntry env k c) (fun r => ⟨r.1.taskDump, r.2.1.nOverrides, r.2.2.cold⟩)
      (plainEntry env c) := by
  unfold obtainEntry
  refine .read ?_
  split
  · refine ((ends_bind ..).mpr ((buildEntry_agrees hk hp).mono ?_ fun _ _ h => h))
    intro r q hends
    exact ⟨hends.1, hends.2.trans ⟨0, rfl⟩⟩
  · rename_i entry hget
    have hmem := OrderedDict.mem_of_get? hget
    have hserves := hp.entries k entry hmem
    obtain ⟨plain, hplain⟩ := hknown (hp.known k entry hmem)
    have hsame : entry.taskDump = plain.dump := by
      obtain ⟨r, _, _, htask, -, -, -, -, rfl⟩ := plainEntry_eq_ok.mp hplain
      exact congrArg Prod.snd (Except.ok.inj ((hserves.task c hk).symm.trans htask))
    refine .write ⟨0, rfl⟩ ?_
    rw [plainEntry_known hplain]
    have hstore : Agrees { p with preparedCache := p.preparedCache.moveToEnd k }
        (ensureStore env entry.refcatStore c.boresightRa c.boresightDec) RefcatTiming.cold
        (plainRefcat env c.boresightRa c.boresightDec) :=
      ensureStore_agrees hp.shards ⟨hp.stores _, hsteady.rows _⟩
    refine (ends_bind ..).mpr (hstore.mono ?_ ?_)
    · intro refcat q hends
      refine ⟨?_, hends.2⟩
      rw [hends.1, ← hsame, ← hk.nOverrides]
      rfl
    · intro exc _ hfail hquiet
      rw [hfail hquiet]
      rfl

/-- **What comes before the activation of a prepare.** -/
theorem lookUpEntry_agrees (hp : Cached env p.toGlobals) (hsteady : Steady env p.toGlobals)
    (hknown : ∀ k, Keyed env k c → k ∈ p.prepareCommands.keys →
      ∃ entry, plainEntry env c = .ok entry) :
    Agrees p (lookUpEntry env c)
      (fun r => (r.1, ⟨r.2.1.taskDump, r.2.2.1.nOverrides, r.2.2.2.cold⟩)) (plainLookUp env c) := by
  have huniverse : Agrees p (ensureUniverse env) id env.dimensionUniverse := by
    unfold ensureUniverse
    refine .read ?_
    split
    · rename_i hbuilt
      exact ⟨hsteady.built hbuilt, .refl _⟩
    · exact .loads fun _ _ => ⟨rfl, 0, rfl⟩
  unfold lookUpEntry plainLookUp
  refine huniverse.bind fun _ q hrun _ => ?_
  have hkeeps := (ensureUniverse_ends hp).of_ok hrun
  have hq : Steady env q.toGlobals := (ensureUniverse_installsOnly.leaves hrun).steady hsteady
  refine .after (.external _) fun k t ht hk => ?_
  obtain ⟨n, rfl⟩ := ht
  refine Agrees.bind (obtainEntry_agrees hk (hkeeps.cached.congr (by rfl) (by rfl))
    ⟨hq.built, hq.rows⟩ fun hmem => hknown k hk (hkeeps.table ▸ hmem)) ?_
  intro r u _ _
  exact ⟨rfl, .refl u⟩

section Backend

variable {b : CalibBackend S} {ids : CalibIds} {r : b.Resolved}

theorem ensureDetectorCalibs_agrees (hb : b.Lawful) (hres : b.resolve c = .ok (ids, r))
    (hd : ∀ id d, p.detectorCalibCache = some (id, d) → b.Detector id d) :
    Agrees p (ensureDetectorCalibs b ids r) Prod.fst (b.loadDetector r) := by
  unfold ensureDetectorCalibs
  refine .read ?_
  split
  · rename_i id d hcache
    split
    · rename_i hid
      obtain ⟨c', ids', r', hres', hids', hload'⟩ := hd id d hcache
      refine ⟨?_, .refl _⟩
      rw [hb.detector hres hres' (hid.symm.trans hids'.symm)]
      exact hload'
    · exact .loads fun _ _ => ⟨rfl, 0, rfl⟩
  · exact .loads fun _ _ => ⟨rfl, 0, rfl⟩

theorem ensureFilterCalibs_agrees (hb : b.Lawful) (hres : b.resolve c = .ok (ids, r))
    (hv : p.filterCalibCache.Forall b.Filtered) {d : DetectorCalibs S}
    (hdet : b.loadDetector r = .ok d) :
    Agrees p (ensureFilterCalibs b ids r d) Prod.fst (b.loadFilter r ids d) := by
  unfold ensureFilterCalibs
  refine .read ?_
  split
  · rename_i v hget
    obtain ⟨c', ids', r', d', hres', hids', hdet', hload'⟩ := hv.get? hget
    refine .write ⟨0, rfl⟩ ⟨?_, .refl _⟩
    rw [hb.filtered hres hres' hids'.symm hdet hdet']
    exact hload'
  · exact .loads fun _ _ => ⟨rfl, 0, rfl⟩

end Backend

/-- The part of `Cached` that is about the calibs. -/
structure GoodCalibs (env : Env S) (g : Globals S) : Prop where
  detector : ∀ b, calibBackend env = .ok b → ∀ id d, g.detectorCalibCache = some (id, d) →
    b.Detector id d
  filtered : ∀ b, calibBackend env = .ok b → g.filterCalibCache.Forall b.Filtered

/-- The invariant of the caches, as far as it is about the calibs. -/
theorem Cached.calibs {g : Globals S} (h : Cached env g) : GoodCalibs env g :=
  ⟨h.detector, h.filtered⟩

/-- A backend is named as it was chosen. -/
theorem calibBackend_name {b : CalibBackend S} (hb : calibBackend env = .ok b) :
    b.name = env.environOr "DONUT_SERVER_CALIB_BACKEND" "files" := by
  unfold calibBackend at hb
  dsimp only at hb
  split at hb
  · rename_i hfiles
    rw [← Except.ok.inj hb, hfiles]
    rfl
  · split at hb
    · rename_i hbutler
      rw [← Except.ok.inj hb, hbutler]
      rfl
    · exact absurd hb (by simp)

theorem calibsFor_map {α : Type} (b : CalibBackend S) (f : CalibSet S → α) :
    (b.calibsFor c).map f = (do
      let (ids, r) ← b.resolve c
      let detector ← b.loadDetector r
      let filtered ← b.loadFilter r ids detector
      pure (f ⟨detector, filtered⟩)) := by
  unfold CalibBackend.calibsFor
  rcases b.resolve c with _ | ⟨ids, r⟩
  · rfl
  · rcases hd : b.loadDetector r with _ | detector
    · dsimp only [bind, Except.bind]
      rw [hd]
      rfl
    · rcases hv : b.loadFilter r ids detector with _ | filtered
      · dsimp only [bind, Except.bind]
        rw [hd]
        dsimp only
        rw [hv]
        rfl
      · dsimp only [bind, Except.bind]
        rw [hd]
        dsimp only
        rw [hv]
        rfl

/-- **The calibs of a prepare come to what its backend resolves now.** -/
theorem ensureCalib_agrees (hrefs : env.RefsIdentify) (hp : GoodCalibs env p.toGlobals) :
    Agrees p (ensureCalib env c) (fun r => (r.1, r.2.cold))
      ((plainCalib env c).map fun calib => (calib, calibReport env c calib)) := by
  unfold ensureCalib plainCalib
  rcases hb : calibBackend env with exc | b
  · exact fun _ => rfl
  · have hlawful := calibBackend_lawful hrefs hb
    dsimp only
    rw [calibsFor_map]
    unfold ensureCalibFrom
    refine .after (.external _) fun found q hq hres => ?_
    obtain ⟨ids, r⟩ := found
    have hp : GoodCalibs env q.toGlobals := hq.globals ▸ hp
    have hd := hp.detector b hb
    refine Agrees.bind (ensureDetectorCalibs_agrees hlawful hres hd) fun r' t hrun hdet => ?_
    have htouch := ((ensureDetectorCalibs_ends hlawful hres hd (hp.filtered b hb)).of_ok hrun).1
    refine Agrees.bind (ensureFilterCalibs_agrees hlawful hres htouch.filtered hdet)
      fun v u _ _ => ?_
    refine ⟨?_, .refl u⟩
    unfold calibReport CalibTiming.cold
    rw [← calibBackend_name hb]
    rfl

/-- **Activating an entry** comes to resolving its calibs. -/
theorem activateEntry_agrees {entry : PreparedEntry S} (hrefs : env.RefsIdentify)
    (hp : GoodCalibs env p.toGlobals) : Agrees p (activateEntry env entry c) CalibTiming.cold
      ((plainCalib env c).map (calibReport env c)) := by
  have hmap : (plainCalib env c).map (calibReport env c) =
      ((plainCalib env c).map fun calib => (calib, calibReport env c calib)).map Prod.snd := by
    rcases plainCalib env c with _ | _ <;> rfl
  unfold activateEntry
  rw [hmap]
  refine (ends_bind ..).mpr ((ensureCalib_agrees hrefs hp).mono ?_ ?_)
  · intro r q hends
    obtain ⟨hx, hq⟩ := hends
    rw [hx]
    exact ⟨rfl, hq.trans ⟨0, rfl⟩⟩
  · intro exc _ hfail hquiet
    rw [hfail hquiet]
    rfl

end Computes

/-! ### The two side by side

The relation between a coordinator and the plain one is that they know the same keys and have one
config live.  Nothing is said of the caches themselves: what they hold only ever shows in what a
prepare comes to, and that was compared above.
-/

/-- A coordinator and the plain one know the same keys and have the same config live. -/
structure Matches (env : Env S) (g : Globals S) (s : PlainCoordinator) : Prop where
  cached : Cached env g
  placed : Placed env g
  steady : Steady env g
  table : ∀ k, k ∈ g.prepareCommands.keys ↔ s.known k ≠ none
  known : ∀ k c, s.known k = some c → Keyed env k c ∧ ∃ entry, plainEntry env c = .ok entry
  live : ∀ c, s.live = some c → Live env c g
  unset : s.live = none → g.calibStore = none

/-- At first neither knows anything. -/
theorem matches_fresh : Matches env Globals.fresh PlainCoordinator.started where
  cached := cached_fresh
  placed := placed_fresh
  steady := ⟨fun h => absurd h (by simp [Globals.fresh]), fun _ => rfl⟩
  table k := ⟨fun h => absurd h List.not_mem_nil, fun h => absurd rfl h⟩
  known k c h := absurd h (by simp [PlainCoordinator.started])
  live c h := absurd h (by simp [PlainCoordinator.started])
  unset _ := rfl

section Matches

variable {p q : Process S} {s : PlainCoordinator} {k : PrepareKey} {c : PrepareCommand}

/-- A config that is live is so by what the live config is made of. -/
theorem Live.of_live {g g' : Globals S} (h : Live env c g) (hlive : g'.live = g.live) :
    Live env c g' := by
  obtain ⟨-, htask, hdump, hcalib, -, hheld⟩ := LiveConfig.mk.inj hlive
  refine ⟨?_, ?_, ?_⟩
  · rw [htask, hdump]
    exact h.task
  · rw [hheld]
    exact h.refcat
  · rw [hcalib]
    exact h.calibs

/-- What fails before it makes anything live leaves the two side by side. -/
theorem Matches.keep (h : Matches env p.toGlobals s) (hcached : Cached env q.toGlobals)
    (hplaced : Placed env q.toGlobals) (hsteady : Steady env q.toGlobals)
    (htable : ∀ k, k ∈ q.prepareCommands.keys ↔ k ∈ p.prepareCommands.keys)
    (hlive : q.live = p.live) : Matches env q.toGlobals s where
  cached := hcached
  placed := hplaced
  steady := hsteady
  table k := (htable k).trans (h.table k)
  known := h.known
  live c hc := (h.live c hc).of_live hlive
  unset hnone := (LiveConfig.mk.inj hlive).2.2.2.1.trans (h.unset hnone)

/-- A job and what it puts off read the config. -/
theorem Matches.reads (h : Matches env p.toGlobals s) (hr : Reads p q) :
    Matches env q.toGlobals s := by
  obtain ⟨_, _, rfl⟩ := hr
  exact h.keep (h.cached.congr rfl rfl) ⟨h.placed.live, h.placed.entries, h.placed.commands⟩
    ⟨h.steady.built, h.steady.rows⟩ (fun _ => Iff.rfl) rfl

/-- **A prepare up to its calibs**, on both sides. -/
theorem lookUpEntry_matches (h : Matches env p.toGlobals s) :
    Ends (lookUpEntry env c) p
      (fun r q => plainLookUp env c =
          .ok (r.1, ⟨r.2.1.taskDump, r.2.2.1.nOverrides, r.2.2.2.cold⟩) ∧
        SameWorld p q ∧ Matches env q.toGlobals (s.know r.1 c) ∧ Keyed env r.1 c ∧
        r.2.1.Serves env q.toGlobals r.1 ∧ r.2.1.refcatStore < q.nextStore)
      (fun exc q => (p.world.faults = [] → plainLookUp env c = .error exc) ∧
        Matches env q.toGlobals s) := by
  have hknown : ∀ k, Keyed env k c → k ∈ p.prepareCommands.keys →
      ∃ entry, plainEntry env c = .ok entry := by
    intro k hk hmem
    obtain ⟨c', hc'⟩ := Option.ne_none_iff_exists'.mp ((h.table k).mp hmem)
    obtain ⟨hk', entry, hentry⟩ := h.known k c' hc'
    exact plainEntry_congr hk' hk hentry
  have hends := lookUpEntry_ends (c := c) h.cached
  have hplaced := lookUpEntry_placed (c := c) h.placed
  have hagrees := lookUpEntry_agrees h.cached h.steady hknown
  unfold Ends
  rcases hrun : (lookUpEntry env c).outcome p with ⟨exc | r, q⟩
  all_goals have hsteady := ((lookUpEntry_installsOnly c).leaves hrun).steady h.steady
  · have hkeeps := hends.of_error hrun
    obtain ⟨hq, hlive⟩ := hplaced.of_error hrun
    refine ⟨Ends.of_error hagrees hrun, h.keep hkeeps.cached hq hsteady (fun k => ?_) hlive⟩
    rw [hkeeps.table]
  · obtain ⟨hcached, hk, hserves, htable, -⟩ := hends.of_ok hrun
    obtain ⟨hq, hlive, hbelow⟩ := hplaced.of_ok hrun
    obtain ⟨hplain, hworld⟩ := Ends.of_ok hagrees hrun
    refine ⟨hplain, hworld, ⟨hcached, hq, hsteady, fun k => ?_, fun k c' hc' => ?_,
      fun c' hc' => (h.live c' hc').of_live hlive, fun hnone =>
        (LiveConfig.mk.inj hlive).2.2.2.1.trans (h.unset hnone)⟩, hk, hserves, hbelow⟩
    · rw [htable k, h.table k]
      show _ ↔ update s.known r.1 (some c) k ≠ none
      by_cases hkey : k = r.1
      · simp [hkey]
      · rw [update_of_ne hkey]
        simp [hkey]
    · have hc' : update s.known r.1 (some c) k = some c' := hc'
      by_cases hkey : k = r.1
      · rw [hkey, update_self] at hc'
        obtain rfl := Option.some.inj hc'
        rw [hkey]
        obtain ⟨_, -, hplain⟩ := Except.bind_eq_ok.mp hplain
        obtain ⟨_, -, hplain⟩ := Except.bind_eq_ok.mp hplain
        obtain ⟨entry, hentry, -⟩ := Except.bind_eq_ok.mp hplain
        exact ⟨hk, entry, hentry⟩
      · rw [update_of_ne hkey] at hc'
        exact h.known k c' hc'

/-- **The activation of a prepare**, on both sides. -/
theorem activateEntry_matches {entry : PreparedEntry S} (hrefs : env.RefsIdentify)
    (h : Matches env p.toGlobals s) (hk : Keyed env k c)
    (hserves : entry.Serves env p.toGlobals k) (hbelow : entry.refcatStore < p.nextStore) :
    Ends (activateEntry env entry c) p
      (fun timing q => ∃ calib, plainCalib env c = .ok calib ∧
        timing.cold = calibReport env c calib ∧ q.taskDump = entry.taskDump ∧ SameWorld p q ∧
        Matches env q.toGlobals (s.setLive c))
      (fun exc q => (p.world.faults = [] → plainCalib env c = .error exc) ∧
        Matches env q.toGlobals s) := by
  have hends := activateEntry_ends hrefs h.cached hk hserves
  have hplaced := activateEntry_placed (c := c) h.placed hbelow
  have hagrees : Agrees p (activateEntry env entry c) CalibTiming.cold
      ((plainCalib env c).map (calibReport env c)) := activateEntry_agrees hrefs h.cached.calibs
  unfold Ends
  rcases hrun : (activateEntry env entry c).outcome p with ⟨exc | timing, q⟩
  all_goals have hsteady := ((activateEntry_installsOnly entry c).leaves hrun).steady h.steady
  · have hkeeps := hends.of_error hrun
    obtain ⟨hq, hlive⟩ := hplaced.of_error hrun
    refine ⟨fun hquiet => ?_, h.keep hkeeps.cached hq hsteady (fun k => ?_) hlive⟩
    · have hplain := Ends.of_error hagrees hrun hquiet
      rcases hcalib : plainCalib env c with exc' | calib
      · rw [hcalib] at hplain
        exact congrArg _ (Except.error.inj hplain)
      · rw [hcalib] at hplain
        exact absurd hplain (by simp [Except.map])
    · rw [hkeeps.table]
  · obtain ⟨hcached, htable, hlive⟩ := hends.of_ok hrun
    obtain ⟨hplain, hworld⟩ := Ends.of_ok hagrees hrun
    rcases hcalib : plainCalib env c with exc' | calib
    · rw [hcalib] at hplain
      exact absurd hplain (by simp [Except.map])
    · rw [hcalib] at hplain
      refine ⟨calib, rfl, (Except.ok.inj hplain).symm, ?_, hworld, hcached, hplaced.of_ok hrun,
        hsteady, fun k => ?_, h.known, fun c' hc' => ?_, fun hnone => ?_⟩
      · obtain ⟨task, htask, -⟩ := hlive.task
        exact congrArg Prod.snd (Except.ok.inj (htask.symm.trans (hserves.task c hk)))
      · rw [htable]
        exact h.table k
      · obtain rfl := Option.some.inj hc'
        exact hlive
      · exact absurd hnone (Option.some_ne_none c)

/-- Prepares with one key get one set of calibs. -/
theorem plainCalib_congr {c' : PrepareCommand} (hrefs : env.RefsIdentify) (hk : Keyed env k c)
    (hk' : Keyed env k c') : plainCalib env c = plainCalib env c' := by
  obtain ⟨_, -, rfl⟩ := hk.parts
  obtain ⟨_, -, heq⟩ := hk'.parts
  obtain ⟨-, hfilter, -, htime⟩ := PrepareKey.mk.inj heq
  unfold plainCalib
  split
  · rename_i backend hb
    unfold CalibBackend.calibsFor
    rw [(calibBackend_lawful hrefs hb).resolve hfilter htime]
  · rfl

/-- **The activation of a job's key** comes to that of the plain coordinator. -/
theorem ensurePreparedForPush_agrees (hrefs : env.RefsIdentify) (h : Matches env p.toGlobals s) :
    Agrees p (ensurePreparedForPush env k) (fun _ => ())
      ((s.activate env (some k)).map fun _ => ()) := by
  unfold ensurePreparedForPush
  refine .read ?_
  rcases hget : p.prepareCommands.get? k with _ | c'
  · have hnone : s.known k = none := by
      by_contra hne
      exact OrderedDict.get?_eq_none.mp hget ((h.table k).mpr hne)
    rw [PlainCoordinator.activate_unknown hnone]
    exact fun _ => rfl
  · obtain ⟨c, hc⟩ := Option.ne_none_iff_exists'.mp
      ((h.table k).mp (OrderedDict.mem_keys_of_get? hget))
    obtain ⟨hk, entry, hentry⟩ := h.known k c hc
    have hk' : Keyed env k c' := h.cached.commands.get? hget
    have hactivate : ∀ (entry : PreparedEntry S) (q : Process S), GoodCalibs env q.toGlobals →
        Agrees q (activateEntry env entry c' >>= fun _ => pure entry) (fun _ => ())
          (((plainCalib env c).map fun _ => s.setLive c).map fun _ => ()) := by
      intro entry q hq
      have hplain : (((plainCalib env c).map fun _ => s.setLive c).map fun _ => ()) =
          ((plainCalib env c').map (calibReport env c')).map fun _ => () := by
        rw [plainCalib_congr hrefs hk hk']
        rcases plainCalib env c' with _ | _ <;> rfl
      rw [hplain]
      refine (ends_bind ..).mpr ((activateEntry_agrees hrefs hq).mono ?_ ?_)
      · intro timing t ht
        rw [ht.1]
        exact ⟨rfl, ht.2⟩
      · intro exc _ hfail hquiet
        rw [hfail hquiet]
        rfl
    rw [PlainCoordinator.activate_known hc]
    dsimp only
    split
    · exact .write ⟨0, rfl⟩ (hactivate _ _ ⟨h.cached.detector, h.cached.filtered⟩)
    · obtain ⟨plain, hplain⟩ := plainEntry_congr hk hk' hentry
      refine (ends_bind ..).mpr (((buildEntry_agrees hk' h.cached).traced).mono ?_ ?_)
      · intro r q hends
        obtain ⟨⟨-, hworld⟩, hrun⟩ := hends
        have hq := ((buildEntry_ends h.cached hk').of_ok hrun).1.cached
        refine Ends.mono (Agrees.write (p := q) ⟨0, rfl⟩
          (hactivate r.1 _ ⟨hq.detector, hq.filtered⟩)) ?_ ?_
        · exact fun _ _ ht => ⟨ht.1, hworld.trans ht.2⟩
        · exact fun _ _ hfail hquiet => hfail (hworld.quiet hquiet)
      · exact fun exc _ hfail hquiet => absurd (hplain.symm.trans (hfail.1 hquiet)) (by simp)

/-- **A job that names its key**, and one that names none. -/
theorem activateFor_matches {key : Option PrepareKey} (hrefs : env.RefsIdentify)
    (h : Matches env p.toGlobals s) :
    Ends (activateFor env key) p
      (fun _ q => ∃ s', s.activate env key = .ok s' ∧ SameWorld p q ∧
        Matches env q.toGlobals s' ∧
        (s' = s ∨ ∃ k c calib, key = some k ∧ s.known k = some c ∧ plainCalib env c = .ok calib ∧
          s' = s.setLive c))
      (fun exc q => (p.world.faults = [] → s.activate env key = .error exc) ∧
        Matches env q.toGlobals s) := by
  cases key with
  | none => exact ⟨s, rfl, .refl p, h, Or.inl rfl⟩
  | some k =>
      have hends := ensurePreparedForPush_ends (k := k) hrefs h.cached
      have hplaced := ensurePreparedForPush_placed (k := k) h.placed
      have hagrees := ensurePreparedForPush_agrees (k := k) hrefs h
      show Ends (ensurePreparedForPush env k >>= fun _ => pure ()) p _ _
      rw [ends_bind]
      unfold Ends
      rcases hrun : (ensurePreparedForPush env k).outcome p with ⟨exc | entry, q⟩
      all_goals have hsteady := ((ensurePreparedForPush_installsOnly k).leaves hrun).steady h.steady
      · have hkeeps := hends.of_error hrun
        obtain ⟨hq, hlive⟩ := hplaced.of_error hrun
        refine ⟨fun hquiet => ?_, h.keep hkeeps.cached hq hsteady (fun k => ?_) hlive⟩
        · have hplain := Ends.of_error hagrees hrun hquiet
          rcases hactivate : s.activate env (some k) with exc' | s'
          · rw [hactivate] at hplain
            exact congrArg _ (Except.error.inj hplain)
          · rw [hactivate] at hplain
            exact absurd hplain (by simp [Except.map])
        · rw [hkeeps.table]
      · obtain ⟨hcached, htable, c', hk', hlive'⟩ := hends.of_ok hrun
        obtain ⟨hplain, hworld⟩ := Ends.of_ok hagrees hrun
        rcases hc : s.known k with _ | c
        · rw [PlainCoordinator.activate_unknown hc] at hplain
          exact absurd hplain (by simp [Except.map])
        · rw [PlainCoordinator.activate_known hc] at hplain ⊢
          rcases hcalib : plainCalib env c with exc | calib
          · rw [hcalib] at hplain
            exact absurd hplain (by simp [Except.map])
          · obtain ⟨hk, -⟩ := h.known k c hc
            refine ⟨s.setLive c, rfl, hworld, ⟨hcached, hplaced.of_ok hrun,
              hsteady, fun k => ?_, h.known, fun c₀ hc₀ => ?_, fun hnone =>
                absurd hnone (Option.some_ne_none c)⟩,
              Or.inr ⟨k, c, calib, rfl, hc, hcalib, rfl⟩⟩
            · rw [htable]
              exact h.table k
            · obtain rfl := Option.some.inj hc₀
              exact hlive'.congr hrefs hk' hk

/-- What comes before the task of a job, prepared or not. -/
theorem Matches.before (h : Matches env p.toGlobals s) (exposures : Exposures S) (q : Process S)
    (hq : Later p q) : ComesTo q (beforeQuantum env exposures) (s.quantum env exposures) := by
  unfold PlainCoordinator.quantum
  rcases hlive : s.live with _ | c
  · have hunset : q.calibStore = none := by
      rw [hq.globals]
      exact h.unset hlive
    unfold beforeQuantum unpreparedQuantum
    refine .bind (.evaluate _) fun sample t ht => .bind (.external _) fun physicalFilter u hu => ?_
    obtain ⟨_, rfl⟩ := ht.trans hu
    refine .read ?_
    simp only [hunset]
    exact .throw _
  · exact (h.live c hlive).before exposures q hq

/-! ### One command

A command either is answered as the plain coordinator answers it, or it fails.  Where nothing goes
wrong outside it fails just as the plain one fails, with the same text.  Where something does, the
plain one is let off too: it takes a step of the second kind, and comes to rest where the real one
has got to.
-/

/-- It was answered as the plain coordinator answers, and leaves what that leaves. -/
def Answered (env : Env S) (s : PlainCoordinator) (command : Command) (p : Process S) (msg : Msg)
    (q : Process S) : Prop :=
  ∃ s', s.next env p.world command = (msg.cold, s') ∧ s.Reaches env command s' ∧
    SameWorld p q ∧ Matches env q.toGlobals s'

/-- It failed as the plain coordinator fails, or something went wrong outside. -/
def FailedOn (env : Env S) (s : PlainCoordinator) (command : Command) (p : Process S) (exc : Exn)
    (q : Process S) : Prop :=
  ∃ s', (p.world.faults = [] → s.next env p.world command = (failure command exc, s')) ∧
    s.Reaches env command s' ∧ Matches env q.toGlobals s'

theorem prepare_matches (hrefs : env.RefsIdentify) (h : Matches env p.toGlobals s) :
    Ends (body env (.prepare c)) p (Answered env s (.prepare c) p)
      (FailedOn env s (.prepare c) p) := by
  show Ends (ensurePrepared env c >>= _) p _ _
  rw [ends_bind]
  unfold ensurePrepared
  rw [ends_bind]
  refine (lookUpEntry_matches h).mono ?_ ?_
  · intro r q hends
    obtain ⟨k, entry, task, refcat⟩ := r
    obtain ⟨hlook, hworld, hq, hk, hserves, hbelow⟩ := hends
    rw [ends_bind]
    refine (activateEntry_matches hrefs hq hk hserves hbelow).mono ?_ ?_
    · intro timing t hends
      obtain ⟨calib, hcalib, hreport, hdump, hworld', ht⟩ := hends
      refine ⟨_, ?_, .prepared c k _ calib rfl hlook hcalib, hworld.trans hworld', ht⟩
      show s.prepare env c = _
      unfold PlainCoordinator.prepare
      rw [hlook]
      dsimp only
      rw [hcalib]
      unfold plainReport
      dsimp only
      rw [← hreport]
      show (_, _) = (Msg.cold (.prepared _ t.taskDump k), _)
      rw [hdump]
      rfl
    · intro exc t hends
      obtain ⟨hcalib, ht⟩ := hends
      refine ⟨_, fun hquiet => ?_, .known c k _ rfl hlook, ht⟩
      show s.prepare env c = _
      unfold PlainCoordinator.prepare
      rw [hlook]
      dsimp only
      rw [hcalib (hworld.quiet hquiet)]
  · intro exc q hends
    obtain ⟨hlook, hq⟩ := hends
    refine ⟨s, fun hquiet => ?_, .nowhere, hq⟩
    show s.prepare env c = _
    unfold PlainCoordinator.prepare
    rw [hlook hquiet]

/-- A job whose code gets some raws and runs. -/
theorem job_matches {command : Command} (raws : World S → Except Exn (Exposures S))
    {run : Code S JobOutput} {numWorkers : Option Int} (hrefs : env.RefsIdentify)
    (h : Matches env p.toGlobals s)
    (hbody : body env command = activateFor env command.preparedKey >>= fun _ => run >>= fun out =>
      pure (.ran out))
    (hnext : s.next env p.world command = s.job env p.world command (raws p.world) numWorkers)
    (hraws : ∀ q, SameWorld p q → raws q.world = raws p.world) (hreads : ReadsOnly run)
    (hrun : ∀ q s', Matches env q.toGlobals s' →
      Agrees q run id (plainJob q.world (raws q.world) (s'.quantum env) numWorkers)) :
    Ends (body env command) p (Answered env s command p) (FailedOn env s command p) := by
  have hreaches : ∀ s', (s' = s ∨ ∃ k c calib, command.preparedKey = some k ∧ s.known k = some c ∧
      plainCalib env c = .ok calib ∧ s' = s.setLive c) → s.Reaches env command s' := by
    intro s' hs'
    rcases hs' with rfl | ⟨k, c, calib, hkey, hc, hcalib, rfl⟩
    · exact .nowhere
    · exact .activated c k calib hkey hc hcalib
  rw [hbody, ends_bind]
  refine (activateFor_matches hrefs h).mono ?_ ?_
  · intro _ q hends
    obtain ⟨s', hactivate, hworld, hq, hs'⟩ := hends
    have hplain : plainJob q.world (raws q.world) (s'.quantum env) numWorkers =
        plainJob p.world (raws p.world) (s'.quantum env) numWorkers := by
      obtain ⟨n, hn⟩ := hworld
      rw [hraws q ⟨n, hn⟩, hn]
      rfl
    have hjob : s.next env p.world command =
        match plainJob q.world (raws q.world) (s'.quantum env) numWorkers with
        | .error exc => (failure command exc, s')
        | .ok out => (.ran out, s') := by
      rw [hnext, hplain]
      unfold PlainCoordinator.job
      rw [hactivate]
    rw [ends_bind]
    unfold Ends
    rcases hout : run.outcome q with ⟨exc | out, t⟩
    · refine ⟨s', fun hquiet => ?_, hreaches s' hs', hq.reads ((hreads q).of_error hout)⟩
      rw [hjob, Ends.of_error (hrun q s' hq) hout (hworld.quiet hquiet)]
    · obtain ⟨hok, hworld'⟩ := Ends.of_ok (hrun q s' hq) hout
      refine ⟨s', ?_, hreaches s' hs', hworld.trans hworld', hq.reads ((hreads q).of_ok hout)⟩
      rw [hjob, hok]
      rfl
  · intro exc q hends
    obtain ⟨hactivate, hq⟩ := hends
    refine ⟨s, fun hquiet => ?_, .nowhere, hq⟩
    rw [hnext]
    unfold PlainCoordinator.job
    rw [hactivate hquiet]

/-- **Every command**, up to the message it is about to send. -/
theorem body_matches (command : Command) (hrefs : env.RefsIdentify)
    (h : Matches env p.toGlobals s) :
    Ends (body env command) p (Answered env s command p) (FailedOn env s command p) := by
  cases command with
  | prepare c => exact prepare_matches hrefs h
  | resolve directory =>
      show Ends (get >>= fun p : Process S => external (p.world.headers directory) >>= _) p _ _
      rw [ends_bind, ends_get, ends_bind]
      refine Ends.mono (Ends.traced (ComesTo.external (p.world.headers directory))) ?_ ?_
      · intro exposure q hends
        obtain ⟨⟨hheaders, hq⟩, -⟩ := hends
        refine ⟨s, ?_, .nowhere, hq.sameWorld, hq.globals ▸ h⟩
        unfold PlainCoordinator.next
        dsimp only
        rw [hheaders]
        rfl
      · intro exc q hends
        obtain ⟨hfail, hrun⟩ := hends
        rw [external_outcome] at hrun
        obtain ⟨-, rfl⟩ := Prod.mk.inj hrun
        refine ⟨s, fun hquiet => ?_, .nowhere, h⟩
        unfold PlainCoordinator.next
        dsimp only
        rw [hfail hquiet]
  | push jobId layout numWorkers key =>
      refine job_matches (fun world => bodyExposures env world.block layout) hrefs h rfl rfl ?_
        runPush_readsOnly fun q s' hq => runPush_agrees hq.before
      intro q hq
      obtain ⟨_, hq⟩ := hq
      rw [hq]
  | ingest jobId directory numWorkers key =>
      refine job_matches (fun world => world.raws directory numWorkers) hrefs h rfl rfl ?_
        runIngest_readsOnly fun q s' hq => runIngest_agrees hq.before
      intro q hq
      obtain ⟨_, hq⟩ := hq
      rw [hq]
  | shutdown => exact ⟨s, rfl, .nowhere, .refl p, h⟩
  | other cmd => exact ⟨s, rfl, .nowhere, .refl p, h⟩

theorem failure_cold (command : Command) (exc : Exn) :
    (failure command exc).cold = failure command exc := by
  cases command <;> rfl

/-- Where nothing goes wrong outside, the message that was made is the one that is sent. -/
theorem attempt_quiet {command : Command} {P : Msg → Process S → Prop}
    (h : Ends (body env command) p (fun msg q => q.world.faults = [] ∧ P msg q)
      (fun exc q => P (failure command exc) q)) :
    P (attempt env command p).1 (attempt env command p).2 := by
  unfold attempt
  rw [outcome_bind]
  unfold Ends at h
  rcases hrun : (body env command).outcome p with ⟨exc | msg, q⟩
  · rw [hrun] at h
    exact h
  · rw [hrun] at h
    have hsent : (do
        if tried command then fault
        pure msg : Code S Msg).outcome q = (.ok msg, q) := by
      split
      · rw [outcome_bind, fault_quiet h.1]
        rfl
      · rfl
    dsimp only
    rw [hsent]
    exact h.2

/-- **A command that is run** is a step of the plain coordinator. -/
theorem run_matches {g : Globals S} (world : World S) (command : Command)
    (hrefs : env.RefsIdentify) (h : Matches env g s) :
    ∃ s', s.Step env world command ((coordinatorProgram env).run world command g).1.cold s' ∧
      Matches env ((coordinatorProgram env).run world command g).2 s' := by
  have hbody := body_matches (p := ⟨g, world⟩) command hrefs h
  have hstep : ∃ s', s.Step env world command (attempt env command ⟨g, world⟩).1.cold s' ∧
      Matches env (attempt env command ⟨g, world⟩).2.toGlobals s' := by
    by_cases hquiet : world.faults = []
    · refine attempt_quiet (P := fun msg q => ∃ s', s.Step env world command msg.cold s' ∧
        Matches env q.toGlobals s') (hbody.mono ?_ ?_)
      · intro msg q hends
        obtain ⟨s', hnext, -, hworld, hq⟩ := hends
        exact ⟨hworld.quiet hquiet, s', .of_next hnext, hq⟩
      · intro exc q hends
        obtain ⟨s', hnext, -, hq⟩ := hends
        refine ⟨s', ?_, hq⟩
        rw [failure_cold]
        exact .of_next (hnext hquiet)
    · have hfailed : ∀ exc s', s.Reaches env command s' →
          s.Step env world command (failure command exc).cold s' := by
        intro exc s' hs'
        rw [failure_cold]
        exact .outage exc hquiet hs'
      refine attempt_of_ends (P := fun msg q => ∃ s', s.Step env world command msg.cold s' ∧
        Matches env q.toGlobals s') hbody ?_ ?_ ?_
      · intro msg q w hends
        obtain ⟨s', hnext, -, -, hq⟩ := hends
        exact ⟨s', .of_next hnext, hq⟩
      · intro msg exc q w hends
        obtain ⟨s', -, hs', -, hq⟩ := hends
        exact ⟨s', hfailed exc s' hs', hq⟩
      · intro exc q hends
        obtain ⟨s', -, hs', hq⟩ := hends
        exact ⟨s', hfailed exc s' hs', hq⟩
  obtain ⟨s', hs', hq⟩ := hstep
  refine ⟨s', hs', ?_⟩
  -- The work put off is no part of the config.
  show Matches env (settle command (attempt env command ⟨g, world⟩).2.toGlobals) s'
  unfold settle
  split
  · exact hq.reads (q := ⟨_, world⟩) ⟨none, world, rfl⟩
  · exact hq

end Matches

/-! ### One command after another

The refinement itself, by induction over the commands: the relation holds of a process just
started, and each command keeps it.
-/

/-- The answers of a coordinator to one command after another. -/
def answers (env : Env S) : Globals S → List (Command × World S) → List Msg
  | _, [] => []
  | g, (command, world) :: rest =>
      let r := (coordinatorProgram env).run world command g
      r.1 :: answers env r.2 rest

/-- Those of the plain one, where nothing goes wrong outside. -/
def PlainCoordinator.answers (env : Env S) : PlainCoordinator → List (Command × World S) → List Msg
  | _, [] => []
  | s, (command, world) :: rest =>
      let r := s.next env world command
      r.1 :: PlainCoordinator.answers env r.2 rest

/-- Where nothing goes wrong outside, the plain coordinator has no choice. -/
theorem PlainCoordinator.Answers.quiet {s : PlainCoordinator} {log : List (Command × World S)}
    {msgs : List Msg} (h : s.Answers env log msgs) (hlog : ∀ e ∈ log, e.2.faults = []) :
    msgs = s.answers env log := by
  induction h with
  | done => rfl
  | next hstep _ ih =>
      cases hstep with
      | served => exact congrArg _ (ih fun e he => hlog e (.tail _ he))
      | outage exc hfaults _ => exact absurd (hlog _ (.head _)) hfaults

theorem answers_matches (hrefs : env.RefsIdentify) (log : List (Command × World S)) :
    ∀ {g : Globals S} {s : PlainCoordinator}, Matches env g s →
      s.Answers env log ((answers env g log).map Msg.cold) := by
  induction log with
  | nil => exact fun _ => .done _
  | cons e rest ih =>
      intro g s h
      obtain ⟨command, world⟩ := e
      obtain ⟨s', hstep, hq⟩ := run_matches world command hrefs h
      exact .next hstep (ih hq)

/-- **The caches change no answer.**  Whatever commands a coordinator gets, and whatever goes
wrong outside, it answers as the plain coordinator may, but for what is said of what was reused;
where nothing goes wrong, it answers as the plain coordinator does. -/
theorem coordinator_refines_plain (hrefs : env.RefsIdentify) (log : List (Command × World S)) :
    PlainCoordinator.started.Answers env log ((answers env .fresh log).map Msg.cold) ∧
    ((∀ e ∈ log, e.2.faults = []) →
      (answers env .fresh log).map Msg.cold = PlainCoordinator.started.answers env log) := by
  have h : PlainCoordinator.started.Answers env log ((answers env .fresh log).map Msg.cold) :=
    answers_matches hrefs log matches_fresh
  exact ⟨h, h.quiet⟩

/-- A prepare, another, one that fails on its way, and a job of the first. -/
def benchLog : List (Command × World benchStack) :=
  [(.prepare (benchPrepare "r_57"), benchWorld), (.prepare (benchPrepare "g_6"), benchWorld),
    (.prepare (benchPrepare "i_39"), { benchWorld with faults := [some (.runtime "disk")] }),
    (.ingest "job" "/raws" none (some (benchKey "r_57")), benchWorld)]

theorem coordinator_refines_plain_bench :
    PlainCoordinator.started.Answers benchEnv benchLog
      ((answers benchEnv .fresh benchLog).map Msg.cold) ∧
    (answers benchEnv .fresh benchLog).map Msg.ok = [true, true, false, true] :=
  ⟨(coordinator_refines_plain benchEnv_refs benchLog).1, by decide +kernel⟩

end DonutServer
