/-
Preparing a config, and going back to one that was prepared before.

`ensurePrepared` and `ensurePreparedForPush` look an entry up by its key or build it,
and activate it.  Everything they call out for may fail, and a failure leaves behind
whatever was written before it, so the order of the writes here is the source's.
-/
import Mathlib.Algebra.GroupWithZero.Nat
import Mathlib.Data.List.Sort
import DonutServer.Coordinator.Globals

namespace DonutServer

open Function

variable {S : Stack} (env : Env S)

/-! ### The reference catalog

The catalog is stored by level-5 pixel, one file each, and used by level-7 pixel.  `_ensure_shards`
reads the files that are not in the cache and cuts each into its children; the cache is cut down to
its cap once, after the loop over all of them, so that a file that cannot be read leaves behind
what was read before it.
-/

/-- `_range_set_ids`. -/
def rangeSetIds (ranges : List (Nat × Nat)) : List Nat :=
  ranges.flatMap fun r => List.range' r.1 (r.2 - r.1)

/-- `sorted`, of a set. -/
def sortedIds (ids : Finset Nat) : List Nat :=
  Quot.liftOn ids.val (List.insertionSort (· ≤ ·)) fun _ _ h =>
    ((List.perm_insertionSort _ _).trans (h.trans (List.perm_insertionSort _ _).symm)).eq_of_pairwise
      (fun _ _ _ _ => le_antisymm) (List.pairwise_insertionSort _ _) (List.pairwise_insertionSort _ _)

/-- `shard_ids_for_pointing`, with the radius it is always called with. -/
def shardIdsForPointing (ra dec : ℚ) : Except Exn (List Nat) :=
  if dec < -90 ∨ 90 < dec then
    .error ⟨.valueError, s!"boresight dec out of range: {env.reprFloat dec}"⟩
  else do
    let ranges ← env.envelope ra dec
    pure ((rangeSetIds ranges).insertionSort (· ≤ ·))

/-- The rows of one level-5 file. -/
def readShard (id : Nat) : Except Exn (List S.Row) := do
  let directory ← env.required "DONUT_SERVER_REFCAT_DIR"
    ("DONUT_SERVER_REFCAT_DIR is not set; point it at the directory " ++
      "holding the level-5 <htmid>.fits shards (see README).")
  let path := PyText.joinPath directory s!"{id}.fits"
  if ¬ env.pathExists path then
    .error (.runtime (s!"{directory} is incomplete: no shard {id} at {path}. " ++
      "Expected all 8192 level-5 files, ids 8192..16383."))
  else env.getData path

/-- `_build_catalog`, of the rows whose index is `childId`. -/
def buildCatalog (rows : List S.Row) (childId : Nat) : Except Exn (Nat × List S.Row) := do
  let kept := rows.filter fun row => env.lookupId row = childId
  env.fillCatalog kept
  pure (childId, kept)

/-- `_reshard_one`: one catalog for each index that occurs, in the order of `np.unique`. -/
def reshardOne (id : Nat) : Except Exn (Children S) := do
  let rows ← readShard env id
  let children ← (sortedIds (rows.map env.lookupId).toFinset).mapM (buildCatalog env rows)
  pure (OrderedDict.empty.update children)

/-- The loop of `_ensure_shards`. -/
def ensureEachShard : List Nat → Children S → Nat → Code S (Children S × Nat)
  | [], shards, loaded => pure (shards, loaded)
  | id :: rest, shards, loaded => do
      let p ← get
      match p.shardCache.get? id with
      | none =>
          let children ← external (reshardOne env id)
          modify fun p => { p with shardCache := p.shardCache.set id children }
          ensureEachShard rest (shards.update children.entries) (loaded + 1)
      | some children =>
          modify fun p => { p with shardCache := p.shardCache.moveToEnd id }
          ensureEachShard rest (shards.update children.entries) loaded

/-- `_ensure_shards`. -/
def ensureShards (wanted : Finset Nat) : Code S (Children S × Nat) := do
  let result ← ensureEachShard env (sortedIds wanted) .empty 0
  modify fun p => { p with shardCache := p.shardCache.evict shardCacheCap }
  pure result

/-- What `RefCatStore.ensure` reports. -/
structure RefcatTiming where
  reused : Bool
  nLevel5Files : Nat
  nLevel7Shards : Nat
  nRows : Nat
  nShardsLoaded : Nat
  nShardsReused : Nat
  boresight : ℚ × ℚ

/-- The part of `ensure` that replaces what the store holds. -/
def refillStore (store : StoreId) (wanted : Finset Nat) : Code S Nat := do
  let (shards, loaded) ← ensureShards env wanted
  let nRows := (shards.entries.map fun e => e.2.length).sum
  modify fun p => { p with stores := update p.stores store ⟨wanted, shards, nRows⟩ }
  pure loaded

/-- `RefCatStore.ensure`. -/
def ensureStore (store : StoreId) (ra dec : ℚ) : Code S RefcatTiming := do
  let wanted := (← external (shardIdsForPointing env ra dec)).toFinset
  let before ← get
  let reused := wanted = (before.stores store).shardIds
  let loaded ← if reused then pure 0 else refillStore env store wanted
  let after ← get
  let now := after.stores store
  pure
    { reused := reused
      nLevel5Files := now.shardIds.card
      nLevel7Shards := now.shards.size
      nRows := now.nRows
      nShardsLoaded := loaded
      nShardsReused := if reused then 0 else wanted.card - loaded
      boresight := (ra, dec) }

/-- `_prepare_key`. -/
def prepareKey (c : PrepareCommand) : Except Exn PrepareKey := do
  let ids ← shardIdsForPointing env c.boresightRa c.boresightDec
  pure ⟨overrideKey c.configOverrides, c.physicalFilter, ids.toFinset, c.calibTime⟩

/-! ### The calibs

A prepare's calibs are resolved first, which costs little, and a half is loaded only where the slot
has another identity.  The detector half is written before the filter half is tried, so a failure
of the second keeps the first.
-/

/-- `_ensure_detector_calibs`, and whether they were there. -/
def ensureDetectorCalibs (b : CalibBackend S) (ids : CalibIds) (r : b.Resolved) :
    Code S (DetectorCalibs S × Bool) := do
  let p ← get
  match p.detectorCalibCache with
  | some (id, detector) =>
      if id = ids.detector then pure (detector, true)
      else
        let detector ← external (b.loadDetector r)
        modify fun p => { p with detectorCalibCache := some (ids.detector, detector) }
        pure (detector, false)
  | none =>
      let detector ← external (b.loadDetector r)
      modify fun p => { p with detectorCalibCache := some (ids.detector, detector) }
      pure (detector, false)

/-- `_ensure_filter_calibs`, and whether they were there. -/
def ensureFilterCalibs (b : CalibBackend S) (ids : CalibIds) (r : b.Resolved)
    (detector : DetectorCalibs S) : Code S (FilterCalibs S × Bool) := do
  let p ← get
  match p.filterCalibCache.get? ids.filtered with
  | some filtered =>
      modify fun p => { p with filterCalibCache := p.filterCalibCache.moveToEnd ids.filtered }
      pure (filtered, true)
  | none =>
      let filtered ← external (b.loadFilter r ids detector)
      modify fun p =>
        { p with
          filterCalibCache := (p.filterCalibCache.set ids.filtered filtered).evict calibCacheCap }
      pure (filtered, false)

/-- What `_ensure_calib` reports. -/
structure CalibTiming where
  detectorReused : Bool
  filterReused : Bool
  backend : String
  nDetectors : Nat
  nIntrinsicZernikes : Nat
  physicalFilter : String
  calibTime : String

/-- `_ensure_calib`, once it has its backend. -/
def ensureCalibFrom (backend : CalibBackend S) (c : PrepareCommand) :
    Code S (CalibSet S × CalibTiming) := do
  let (ids, r) ← external (backend.resolve c)
  let (detector, detectorReused) ← ensureDetectorCalibs backend ids r
  let (filtered, filterReused) ← ensureFilterCalibs backend ids r detector
  pure (⟨detector, filtered⟩,
    { detectorReused := detectorReused
      filterReused := filterReused
      backend := backend.name
      nDetectors := detector.detectorIds.length
      nIntrinsicZernikes := filtered.intrinsicZernikesByName.size
      physicalFilter := filtered.physicalFilter
      calibTime := c.calibTime })

/-- `_ensure_calib`. -/
def ensureCalib (c : PrepareCommand) : Code S (CalibSet S × CalibTiming) :=
  match calibBackend env with
  | .ok backend => ensureCalibFrom backend c
  | .error exc => throw exc

/-! ### Entries

An entry is built whole before it is stored, and stored before it is activated.  On a hit the store
of the entry is ensured again, which finds its shards there; the same function is called in both
cases, as in the source.
-/

/-- `_activate_entry`: nothing here can fail once the calibs are there. -/
def activateEntry (entry : PreparedEntry S) (c : PrepareCommand) : Code S CalibTiming := do
  let (calib, timing) ← ensureCalib env c
  modify fun p =>
    { p with
      activeKey := some entry.key
      task := some entry.task
      taskDump := entry.taskDump
      calibStore := some (calib.filtered.physicalFilter, calib)
      refcatStore := entry.refcatStore }
  pure timing

/-- `stamp_dir`. -/
def stampDir : Except Exn String :=
  env.required "DONUT_SERVER_STAMP_DIR"
    ("DONUT_SERVER_STAMP_DIR is not set; point it at a writable directory " ++
      "for the per-job image tables (~17 MB each, unpruned -- see README).")

/-- `RefCatStore()`, kept under a number of its own. -/
def newStore : Code S StoreId := do
  let p ← get
  modify fun p =>
    { p with stores := update p.stores p.nextStore .new, nextStore := p.nextStore + 1 }
  pure p.nextStore

/-- What a prepare reports of its task. -/
structure TaskTiming where
  reused : Bool
  nOverrides : Nat

/-- `_build_entry`. -/
def buildEntry (key : PrepareKey) (c : PrepareCommand) :
    Code S (PreparedEntry S × TaskTiming × RefcatTiming) := do
  let (task, taskDump) ← external (buildTask env c.configOverrides)
  external env.warmUpParquet
  let dir ← evaluate (stampDir env)
  external (env.makedirs dir)
  let store ← newStore
  let refcat ← ensureStore env store c.boresightRa c.boresightDec
  pure (⟨key, task, taskDump, store⟩, ⟨false, key.task.length⟩, refcat)

/-- The part of `ensure_prepared` that gets or builds the entry. -/
def obtainEntry (key : PrepareKey) (c : PrepareCommand) :
    Code S (PreparedEntry S × TaskTiming × RefcatTiming) := do
  let p ← get
  match p.preparedCache.get? key with
  | none =>
      let (entry, timings) ← buildEntry env key c
      modify fun p =>
        { p with
          preparedCache := (p.preparedCache.set key entry).evict preparedCacheCap
          prepareCommands := p.prepareCommands.set key c }
      pure (entry, timings)
  | some entry =>
      modify fun p => { p with preparedCache := p.preparedCache.moveToEnd key }
      let refcat ← ensureStore env entry.refcatStore c.boresightRa c.boresightDec
      pure (entry, ⟨true, key.task.length⟩, refcat)

/-- `if _UNIVERSE is None: _UNIVERSE = DimensionUniverse()`. -/
def ensureUniverse : Code S Unit := do
  let p ← get
  if p.universeBuilt then pure ()
  else
    external env.dimensionUniverse
    modify fun p => { p with universeBuilt := true }

/-- The part of `ensure_prepared` before the entry is activated. -/
def lookUpEntry (c : PrepareCommand) :
    Code S (PrepareKey × PreparedEntry S × TaskTiming × RefcatTiming) := do
  ensureUniverse env
  let key ← external (prepareKey env c)
  let (entry, timings) ← obtainEntry env key c
  pure (key, entry, timings)

/-- `ensure_prepared`. -/
def ensurePrepared (c : PrepareCommand) : Code S (PrepareKey × PrepareTimings) := do
  let (key, entry, task, refcat) ← lookUpEntry env c
  let calib ← activateEntry env entry c
  pure (key,
    { taskReused := task.reused
      nOverrides := task.nOverrides
      refcatReused := refcat.reused
      nLevel5Files := refcat.nLevel5Files
      nLevel7Shards := refcat.nLevel7Shards
      nRows := refcat.nRows
      nShardsLoaded := refcat.nShardsLoaded
      nShardsReused := refcat.nShardsReused
      boresight := refcat.boresight
      detectorReused := calib.detectorReused
      filterReused := calib.filterReused
      backend := calib.backend
      nDetectors := calib.nDetectors
      nIntrinsicZernikes := calib.nIntrinsicZernikes
      physicalFilter := calib.physicalFilter
      calibTime := calib.calibTime })

/-- `repr` of an override list's key. -/
def reprKeyEntry : KeyEntry → String
  | .value field v =>
      s!"('value', {PyText.reprText field}, {PyText.reprText v})"
  | .python name text =>
      s!"('python', {PyText.reprText name}, {PyText.reprText text})"

/-- `repr` of a tuple, which keeps a comma after a single item. -/
def reprTuple : List String → String
  | [item] => s!"({item},)"
  | items => "(" ++ ", ".intercalate items ++ ")"

/-- `repr` of a frozen set of ids; the order of its items is the interpreter's. -/
def reprIds (ids : Finset Nat) : String :=
  if ids = ∅ then "frozenset()"
  else "frozenset(\x7b" ++ ", ".intercalate ((sortedIds ids).map toString) ++ "\x7d)"

/-- `repr` of a key. -/
def reprKey (key : PrepareKey) : String :=
  s!"PrepareKey(task={reprTuple (key.task.map reprKeyEntry)}, " ++
    s!"physical_filter={PyText.reprText key.physicalFilter}, refcat={reprIds key.refcat}, " ++
    s!"calib_time={PyText.reprText key.calibTime})"

/-- What `ensure_prepared_for_push` raises for a key it does not know. -/
def neverPrepared (key : PrepareKey) : Exn :=
  .runtime (s!"no prepared config found for key {reprKey key}: it was never prepared on " ++
    "this coordinator (or the coordinator has restarted since)")

/-- `ensure_prepared_for_push`. -/
def ensurePreparedForPush (key : PrepareKey) : Code S (PreparedEntry S) := do
  let p ← get
  match p.prepareCommands.get? key with
  | none => throw (neverPrepared key)
  | some c =>
      match p.preparedCache.get? key with
      | some entry =>
          modify fun p => { p with preparedCache := p.preparedCache.moveToEnd key }
          let _ ← activateEntry env entry c
          pure entry
      | none =>
          let (entry, _) ← buildEntry env key c
          modify fun p =>
            { p with
              preparedCache := (p.preparedCache.set key entry).evict preparedCacheCap }
          let _ ← activateEntry env entry c
          pure entry

end DonutServer
