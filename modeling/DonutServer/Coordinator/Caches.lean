/-
What the caches hold, and that everything a prepare does keeps it so.

`Cached` says that each cache holds what building its value afresh would give: an
entry the task and the shards of its key, a calib half what the backend loads under
that identity, a parent what reading its file gives, and the table of commands for
each key a command with that key.  It holds of a process just started, and every
function of a prepare ends in a state where it holds, whether it returns or raises.

For each function there is one lemma, which says where it can end: which globals it
may have written, and what the value it returns is.
-/
import DonutServer.Coordinator.Prepare

namespace DonutServer

open Function Effect

variable {S : Stack} {env : Env S}

/-! ### The caches' contents

A cache is right if each of its entries is what building the value afresh would give.  For the
shard cache that is a matter of the files, for the calibs of what the backend loads under an
identity, and for the prepared cache of the task, the store and the shards in it.  The table of
commands belongs here too: a push names a key, and is served under the command the table has for
it.
-/

/-- The loop of `load_and_reshard`, which reads every shard afresh. -/
def loadEachShard (env : Env S) : List Nat → Children S → Except Exn (Children S)
  | [], shards => pure shards
  | id :: rest, shards => do
      let children ← reshardOne env id
      loadEachShard env rest (shards.update children.entries)

/-- `load_and_reshard`. -/
def loadAndReshard (env : Env S) (ids : List Nat) : Except Exn (Children S) :=
  loadEachShard env ids .empty

/-- The store holds the catalogs of the shards it was asked for. -/
def RefCatStore.Loaded (env : Env S) (store : RefCatStore S) : Prop :=
  loadAndReshard env (sortedIds store.shardIds) = .ok store.shards

/-- `c` is a prepare with key `k`, under the sky that `env` has. -/
def Keyed (env : Env S) (k : PrepareKey) (c : PrepareCommand) : Prop := prepareKey env c = .ok k

/-- `entry` is what a prepare with key `k` is to run under. -/
structure PreparedEntry.Serves (env : Env S) (g : Globals S) (k : PrepareKey)
    (entry : PreparedEntry S) : Prop where
  key : entry.key = k
  task : ∀ c, Keyed env k c → buildTask env c.configOverrides = .ok (entry.task, entry.taskDump)
  refcat : (g.stores entry.refcatStore).shardIds = k.refcat
  placed : entry.refcatStore < g.nextStore

/-- Some resolution gives this identity, and loads this detector half under it. -/
def CalibBackend.Detector (b : CalibBackend S) (id : CalibId) (d : DetectorCalibs S) : Prop :=
  ∃ c ids r, b.resolve c = .ok (ids, r) ∧ ids.detector = id ∧ b.loadDetector r = .ok d

/-- Some resolution gives this identity, and loads this filter half under it. -/
def CalibBackend.Filtered (b : CalibBackend S) (id : CalibId) (v : FilterCalibs S) : Prop :=
  ∃ c ids r d, b.resolve c = .ok (ids, r) ∧ ids.filtered = id ∧ b.loadDetector r = .ok d ∧
    b.loadFilter r ids d = .ok v

/-- What the caches hold is what building it afresh gives. -/
structure Cached (env : Env S) (g : Globals S) : Prop where
  entries : g.preparedCache.Forall (PreparedEntry.Serves env g)
  known : ∀ k e, (k, e) ∈ g.preparedCache.entries → k ∈ g.prepareCommands.keys
  commands : g.prepareCommands.Forall (Keyed env)
  detector : ∀ b, calibBackend env = .ok b → ∀ id d, g.detectorCalibCache = some (id, d) →
    b.Detector id d
  filtered : ∀ b, calibBackend env = .ok b → g.filterCalibCache.Forall b.Filtered
  shards : g.shardCache.Forall fun id children => reshardOne env id = .ok children
  stores : ∀ i, (g.stores i).Loaded env

theorem RefCatStore.loaded_new : (RefCatStore.new : RefCatStore S).Loaded env := rfl

/-- **A process just started holds nothing wrong, because it holds nothing.** -/
theorem cached_fresh : Cached env Globals.fresh where
  entries := OrderedDict.forall_empty _
  known := fun _ _ h => absurd h List.not_mem_nil
  commands := OrderedDict.forall_empty _
  detector := fun _ _ _ _ h => absurd h (by simp [Globals.fresh])
  filtered := fun _ _ => OrderedDict.forall_empty _
  shards := OrderedDict.forall_empty _
  stores := fun _ => RefCatStore.loaded_new

/-! ### The refcat

`ensure` writes the shard cache parent by parent, and the store only at the end, when every shard
is there.  So the two lemmas about it differ: the cache is kept good wherever the loop stops, and
the store is either as it was or loaded.
-/

/-- Only the shard cache is written, and it is kept good. -/
structure TouchesShards (env : Env S) (p q : Process S) : Prop where
  eq : ∃ cache world, q = { p with shardCache := cache, world := world }
  shards : q.shardCache.Forall fun id children => reshardOne env id = .ok children

/-- One such change after another. -/
theorem TouchesShards.trans {p q r : Process S} (h : TouchesShards env p q)
    (h' : TouchesShards env q r) : TouchesShards env p r := by
  obtain ⟨cache, world, rfl⟩ := h.eq
  obtain ⟨cache', world', rfl⟩ := h'.eq
  exact ⟨⟨cache', world', rfl⟩, h'.shards⟩

theorem TouchesShards.world {p : Process S} (w : World S)
    (hp : p.shardCache.Forall fun id children => reshardOne env id = .ok children) :
    TouchesShards env p { p with world := w } := ⟨⟨_, _, rfl⟩, hp⟩

/-- What the files read as under `env'` is what they read as under `env`, unless they cannot be
read at all: a file that is gone spoils nothing that was read of it before. -/
def FilesKept (env' env : Env S) : Prop :=
  ∀ id children, reshardOne env' id = .ok children → reshardOne env id = .ok children

theorem FilesKept.refl (env : Env S) : FilesKept env env := fun _ _ h => h

theorem ensureEachShard_ends {env' : Env S} (hfiles : FilesKept env' env) (ids : List Nat)
    (shards : Children S) (loaded : Nat) (p : Process S)
    (hp : p.shardCache.Forall fun id children => reshardOne env id = .ok children) :
    Ends (ensureEachShard env' ids shards loaded) p
      (fun r q => TouchesShards env p q ∧ loadEachShard env ids shards = .ok r.1)
      (fun _ q => TouchesShards env p q) := by
  induction ids generalizing shards loaded p with
  | nil => exact ⟨⟨⟨_, _, rfl⟩, hp⟩, rfl⟩
  | cons id rest ih =>
      -- Either way the children are what reading the file gives, so the rest of the
      -- loop goes on from the same catalogs as `load_and_reshard` does.
      have hnext : ∀ (q : Process S) (children : Children S), TouchesShards env p q →
          reshardOne env id = .ok children → ∀ loaded,
          Ends (ensureEachShard env' rest (shards.update children.entries) loaded) q
            (fun r q => TouchesShards env p q ∧ loadEachShard env (id :: rest) shards = .ok r.1)
            (fun _ q => TouchesShards env p q) := by
        intro q children hq hchildren loaded
        refine (ih _ _ q hq.shards).mono ?_ ?_
        · intro r t ht
          refine ⟨hq.trans ht.1, ?_⟩
          rw [loadEachShard, hchildren]
          exact ht.2
        · intro exc t ht
          exact hq.trans ht
      unfold ensureEachShard
      rw [ends_bind, ends_get]
      split
      · rw [ends_bind]
        refine ends_external ?_ ?_
        · intro children w hchildren
          rw [ends_bind, ends_modify]
          have hread := hfiles id children hchildren
          exact hnext _ children ⟨⟨_, _, rfl⟩, hp.set hread⟩ hread _
        · intro exc w
          exact ⟨⟨_, _, rfl⟩, hp⟩
      · rename_i children hget
        rw [ends_bind, ends_modify]
        exact hnext _ children ⟨⟨_, _, rfl⟩, hp.moveToEnd id⟩ (hp.get? hget) _

theorem ensureShards_ends {env' : Env S} (hfiles : FilesKept env' env) (wanted : Finset Nat)
    (p : Process S)
    (hp : p.shardCache.Forall fun id children => reshardOne env id = .ok children) :
    Ends (ensureShards env' wanted) p
      (fun r q => TouchesShards env p q ∧ loadAndReshard env (sortedIds wanted) = .ok r.1)
      (fun _ q => TouchesShards env p q) := by
  unfold ensureShards
  refine Ends.bind (ensureEachShard_ends hfiles _ _ _ p hp) ?_
  intro r q hq
  rw [ends_bind, ends_modify, ends_pure]
  exact ⟨hq.1.trans ⟨⟨_, _, rfl⟩, hq.1.shards.evict _⟩, hq.2⟩

/-- **What `RefCatStore.ensure` leaves.**  Where it returns, the store holds the shards of
the pointing; where it raises, it holds what it held before. -/
theorem ensureStore_ends (store : StoreId) (ra dec : ℚ) (p : Process S)
    (hp : p.shardCache.Forall fun id children => reshardOne env id = .ok children)
    (hloaded : (p.stores store).Loaded env) :
    Ends (ensureStore env store ra dec) p
      (fun _ q => ∃ q' ids now, TouchesShards env p q' ∧ shardIdsForPointing env ra dec = .ok ids ∧
        q = { q' with stores := update p.stores store now } ∧ now.shardIds = ids.toFinset ∧
        now.Loaded env)
      (fun _ q => TouchesShards env p q) := by
  unfold ensureStore
  simp only [ends_bind]
  refine ends_external ?_ ?_
  · intro ids w hids
    simp only [ends_get]
    by_cases hreused : ids.toFinset = (p.stores store).shardIds
    · simp only [hreused, decide_true, if_true]
      refine ⟨{ p with world := w }, ids, p.stores store, .world w hp, hids, ?_, hreused.symm,
        hloaded⟩
      rw [update_eq_self]
    · simp only [hreused, decide_false, if_false]
      unfold refillStore
      simp only [ends_bind, ends_modify, ends_pure]
      refine (ensureShards_ends (.refl env) ids.toFinset { p with world := w } hp).mono ?_ ?_
      · intro r q hq
        have htouch : TouchesShards env p q := (TouchesShards.world w hp).trans hq.1
        obtain ⟨cache, world, rfl⟩ := hq.1.eq
        exact ⟨_, ids, _, htouch, hids, rfl, rfl, hq.2⟩
      · intro exc q hq
        exact (TouchesShards.world w hp).trans hq
  · intro exc w
    exact TouchesShards.world w hp

/-! ### The calibs

Both halves go by identity.  A half with the identity in its slot is reused, and any other is
loaded and put there; what is in a slot was therefore loaded under the identity it stands with, and
lawfulness of the backend makes that the calibs of every prepare with this identity.
-/

/-- Only the calib caches are written, and they are kept good. -/
structure TouchesCalibs (b : CalibBackend S) (p q : Process S) : Prop where
  eq : ∃ d v w, q = { p with detectorCalibCache := d, filterCalibCache := v, world := w }
  detector : ∀ id d, q.detectorCalibCache = some (id, d) → b.Detector id d
  filtered : q.filterCalibCache.Forall b.Filtered

/-- One such change after another. -/
theorem TouchesCalibs.trans {b : CalibBackend S} {p q r : Process S} (h : TouchesCalibs b p q)
    (h' : TouchesCalibs b q r) : TouchesCalibs b p r := by
  obtain ⟨_, _, _, rfl⟩ := h.eq
  obtain ⟨_, _, _, rfl⟩ := h'.eq
  exact ⟨⟨_, _, _, rfl⟩, h'.detector, h'.filtered⟩

section Backend

variable {b : CalibBackend S} {c : PrepareCommand} {ids : CalibIds} {r : b.Resolved}
  {p : Process S}

theorem TouchesCalibs.refl (hd : ∀ id d, p.detectorCalibCache = some (id, d) → b.Detector id d)
    (hv : p.filterCalibCache.Forall b.Filtered) (w : World S) :
    TouchesCalibs b p { p with world := w } := ⟨⟨_, _, _, rfl⟩, hd, hv⟩

theorem ensureDetectorCalibs_ends (hb : b.Lawful) (hres : b.resolve c = .ok (ids, r))
    (hd : ∀ id d, p.detectorCalibCache = some (id, d) → b.Detector id d)
    (hv : p.filterCalibCache.Forall b.Filtered) :
    Ends (ensureDetectorCalibs b ids r) p
      (fun d q => TouchesCalibs b p q ∧ b.loadDetector r = .ok d.1)
      (fun _ q => TouchesCalibs b p q) := by
  have hload : Ends (do
        let detector ← external (b.loadDetector r)
        modify fun p => { p with detectorCalibCache := some (ids.detector, detector) }
        pure (detector, false)) p
      (fun d q => TouchesCalibs b p q ∧ b.loadDetector r = .ok d.1)
      (fun _ q => TouchesCalibs b p q) := by
    rw [ends_bind]
    refine ends_external ?_ fun _ w => .refl hd hv w
    intro d w hload
    rw [ends_bind, ends_modify, ends_pure]
    refine ⟨⟨⟨_, _, _, rfl⟩, ?_, hv⟩, hload⟩
    intro id d' heq
    obtain ⟨rfl, rfl⟩ := Prod.mk.inj (Option.some.inj heq)
    exact ⟨c, ids, r, hres, rfl, hload⟩
  unfold ensureDetectorCalibs
  rw [ends_bind, ends_get]
  split
  · rename_i id d hcache
    by_cases hid : id = ids.detector
    · rw [if_pos hid, ends_pure]
      obtain ⟨c', ids', r', hres', hids', hload'⟩ := hd id d hcache
      refine ⟨.refl hd hv p.world, ?_⟩
      rw [hb.detector hres hres' (hid.symm.trans hids'.symm)]
      exact hload'
    · rw [if_neg hid]
      exact hload
  · exact hload

theorem ensureFilterCalibs_ends (hb : b.Lawful) (hres : b.resolve c = .ok (ids, r))
    (hd : ∀ id d, p.detectorCalibCache = some (id, d) → b.Detector id d)
    (hv : p.filterCalibCache.Forall b.Filtered) {d : DetectorCalibs S}
    (hdet : b.loadDetector r = .ok d) :
    Ends (ensureFilterCalibs b ids r d) p
      (fun v q => TouchesCalibs b p q ∧ b.loadFilter r ids d = .ok v.1)
      (fun _ q => TouchesCalibs b p q) := by
  unfold ensureFilterCalibs
  rw [ends_bind, ends_get]
  split
  · rename_i v hget
    rw [ends_bind, ends_modify, ends_pure]
    obtain ⟨c', ids', r', d', hres', hids', hdet', hload'⟩ := hv.get? hget
    refine ⟨⟨⟨_, _, _, rfl⟩, hd, hv.moveToEnd _⟩, ?_⟩
    rw [hb.filtered hres hres' hids'.symm hdet hdet']
    exact hload'
  · rw [ends_bind]
    refine ends_external ?_ fun _ w => .refl hd hv w
    intro v w hload
    rw [ends_bind, ends_modify, ends_pure]
    have hnew : b.Filtered ids.filtered v := ⟨c, ids, r, d, hres, rfl, hdet, hload⟩
    exact ⟨⟨⟨_, _, _, rfl⟩, hd, (hv.set hnew).evict _⟩, hload⟩

/-- **The calibs of a prepare are those its backend resolves**, cached or not. -/
theorem ensureCalibFrom_ends (hb : b.Lawful)
    (hd : ∀ id d, p.detectorCalibCache = some (id, d) → b.Detector id d)
    (hv : p.filterCalibCache.Forall b.Filtered) :
    Ends (ensureCalibFrom b c) p
      (fun calib q => TouchesCalibs b p q ∧ b.calibsFor c = .ok calib.1 ∧
        calib.1.filtered.physicalFilter = c.physicalFilter)
      (fun _ q => TouchesCalibs b p q) := by
  unfold ensureCalibFrom
  rw [ends_bind]
  refine ends_external ?_ fun _ w => .refl hd hv w
  intro r w hres
  obtain ⟨ids, r⟩ := r
  rw [ends_bind]
  refine (ensureDetectorCalibs_ends (p := { p with world := w }) hb hres hd hv).mono ?_ ?_
  · intro r q hends
    obtain ⟨d, reused⟩ := r
    obtain ⟨hq, hdet⟩ := hends
    rw [ends_bind]
    refine (ensureFilterCalibs_ends hb hres hq.detector hq.filtered hdet).mono ?_ ?_
    · intro r t hends
      obtain ⟨v, reused'⟩ := r
      obtain ⟨ht, hfil⟩ := hends
      refine ⟨(TouchesCalibs.refl hd hv w).trans (hq.trans ht), ?_, hb.physicalFilter hres hfil⟩
      unfold CalibBackend.calibsFor
      rw [hres]
      show (do let detector ← b.loadDetector r; _) = _
      rw [hdet]
      show (do let filtered ← b.loadFilter r ids d; _) = _
      rw [hfil]
      rfl
    · exact fun exc t ht => (TouchesCalibs.refl hd hv w).trans (hq.trans ht)
  · exact fun exc q hq => (TouchesCalibs.refl hd hv w).trans hq

end Backend

/-! ### Entries

What a key says of a prepare is enough to build its entry, so an entry serves every prepare with
its key.  The store is the delicate part: it is shared and changed in place, and the lemmas here
say that it may be filled with the shards of the keys whose entries use it, that a new one is used
by no entry, and that moving an entry moves no store.
-/

/-- What the key of a prepare says. -/
theorem Keyed.parts {k : PrepareKey} {c : PrepareCommand} (h : Keyed env k c) :
    ∃ ids, shardIdsForPointing env c.boresightRa c.boresightDec = .ok ids ∧
      k = ⟨overrideKey c.configOverrides, c.physicalFilter, ids.toFinset, c.calibTime⟩ := by
  obtain ⟨ids, hids, hk⟩ := Except.bind_eq_ok.mp h
  exact ⟨ids, hids, (Except.ok.inj hk).symm⟩

/-- An entry that serves a key serves it under every sky with the same files. -/
theorem PreparedEntry.Serves.congr {g g' : Globals S} {k : PrepareKey} {entry : PreparedEntry S}
    (h : entry.Serves env g k) (hsame : (g'.stores, g'.nextStore) = (g.stores, g.nextStore)) :
    entry.Serves env g' k := by
  obtain ⟨hstores, hnext⟩ := Prod.mk.inj hsame
  exact ⟨h.key, h.task, by rw [hstores]; exact h.refcat, by rw [hnext]; exact h.placed⟩

/-- What `Cached` does not look at may change: the live config and the universe. -/
theorem Cached.congr {g g' : Globals S} (h : Cached env g)
    (hentries : (g'.preparedCache, g'.prepareCommands, g'.stores, g'.nextStore) =
      (g.preparedCache, g.prepareCommands, g.stores, g.nextStore))
    (hcaches : (g'.detectorCalibCache, g'.filterCalibCache, g'.shardCache) =
      (g.detectorCalibCache, g.filterCalibCache, g.shardCache)) : Cached env g' := by
  simp only [Prod.mk.injEq] at hentries hcaches
  obtain ⟨hentries, hcommands, hstores, hnext⟩ := hentries
  obtain ⟨hdetector, hfiltered, hshards⟩ := hcaches
  refine ⟨?_, ?_, ?_, ?_, ?_, ?_, ?_⟩
  · rw [hentries]
    exact h.entries.mono fun _ _ he => he.congr (by rw [hstores, hnext])
  · rw [hentries, hcommands]; exact h.known
  · rw [hcommands]; exact h.commands
  · rw [hdetector]; exact h.detector
  · rw [hfiltered]; exact h.filtered
  · rw [hshards]; exact h.shards
  · rw [hstores]; exact h.stores

theorem Cached.touchShards {p q : Process S} (h : Cached env p.toGlobals)
    (hq : TouchesShards env p q) : Cached env q.toGlobals := by
  have hshards := hq.shards
  obtain ⟨cache, world, rfl⟩ := hq.eq
  exact ⟨h.entries.mono fun _ _ he => he.congr rfl, h.known, h.commands, h.detector, h.filtered, hshards,
    h.stores⟩

theorem Cached.touchCalibs {p q : Process S} {b : CalibBackend S} (h : Cached env p.toGlobals)
    (hb : calibBackend env = .ok b) (hq : TouchesCalibs b p q) : Cached env q.toGlobals := by
  have hdetector := hq.detector
  have hfiltered := hq.filtered
  obtain ⟨d, v, w, rfl⟩ := hq.eq
  refine ⟨h.entries.mono fun _ _ he => he.congr rfl, h.known, h.commands, ?_, ?_, h.shards, h.stores⟩
  · intro b' hb'
    obtain rfl : b = b' := Except.ok.inj (hb.symm.trans hb')
    exact hdetector
  · intro b' hb'
    obtain rfl : b = b' := Except.ok.inj (hb.symm.trans hb')
    exact hfiltered

/-- A store may be filled with the shards of the keys whose entries use it. -/
theorem Cached.fillStore {g : Globals S} (store : StoreId) {now : RefCatStore S}
    (h : Cached env g) (hnow : now.Loaded env)
    (hused : ∀ k e, (k, e) ∈ g.preparedCache.entries → e.refcatStore = store →
      now.shardIds = k.refcat) : Cached env { g with stores := update g.stores store now } := by
  refine ⟨?_, h.known, h.commands, h.detector, h.filtered, h.shards, ?_⟩
  · intro k e hmem
    have he := h.entries k e hmem
    refine ⟨he.key, he.task, ?_, he.placed⟩
    show (update g.stores store now e.refcatStore).shardIds = _
    by_cases hstore : e.refcatStore = store
    · rw [hstore, update_self]
      exact hused k e hmem hstore
    · rw [update_of_ne hstore]
      exact he.refcat
  · intro i
    show (update g.stores store now i).Loaded env
    by_cases hstore : i = store
    · rw [hstore, update_self]
      exact hnow
    · rw [update_of_ne hstore]
      exact h.stores i

/-- A hit moves its entry to the end. -/
theorem Cached.moved {g : Globals S} (h : Cached env g) (k : PrepareKey) :
    Cached env { g with preparedCache := g.preparedCache.moveToEnd k } := by
  refine ⟨(h.entries.moveToEnd k).mono fun _ _ he => he.congr rfl, ?_, h.commands, h.detector,
    h.filtered, h.shards, h.stores⟩
  exact fun k' e he => h.known k' e (OrderedDict.mem_moveToEnd.mp he)

/-- A new store is used by no entry yet. -/
theorem Cached.newStore {g : Globals S} (h : Cached env g) :
    Cached env { g with
      stores := update g.stores g.nextStore .new, nextStore := g.nextStore + 1 } := by
  have hfilled := h.fillStore g.nextStore RefCatStore.loaded_new fun k e hmem hstore =>
    absurd (h.entries k e hmem).placed (by rw [hstore]; exact Nat.lt_irrefl _)
  refine ⟨?_, h.known, h.commands, h.detector, h.filtered, h.shards, hfilled.stores⟩
  intro k e hmem
  have he := hfilled.entries k e hmem
  exact ⟨he.key, he.task, he.refcat, Nat.lt_succ_of_lt he.placed⟩

/-- The caches stay good, and the table of commands and the live config as they are. -/
structure Keeps (env : Env S) (p q : Process S) : Prop where
  cached : Cached env q.toGlobals
  table : q.prepareCommands = p.prepareCommands
  dump : q.taskDump = p.taskDump

theorem Keeps.touchShards {p q : Process S} (h : Cached env p.toGlobals)
    (hq : TouchesShards env p q) : Keeps env p q := by
  obtain ⟨_, _, rfl⟩ := hq.eq
  exact ⟨h.touchShards hq, rfl, rfl⟩

section Entries

variable {p : Process S} {k : PrepareKey} {c : PrepareCommand}

theorem buildTask_serves {result : S.Task × String} (hk : Keyed env k c)
    (h : buildTask env c.configOverrides = .ok result) {c' : PrepareCommand}
    (hk' : Keyed env k c') : buildTask env c'.configOverrides = .ok result := by
  obtain ⟨_, _, rfl⟩ := hk.parts
  obtain ⟨_, _, heq⟩ := hk'.parts
  rw [buildTask_congr env (PrepareKey.mk.inj heq).1.symm]
  exact h

/-- **A build gives the entry its key asks for**, and a failed one spoils nothing. -/
theorem buildEntry_ends (hp : Cached env p.toGlobals) (hk : Keyed env k c) :
    Ends (buildEntry env k c) p
      (fun r q => Keeps env p q ∧ r.1.Serves env q.toGlobals k)
      (fun _ q => Keeps env p q) := by
  have herror : ∀ w, Keeps env p { p with world := w } := fun w => ⟨hp.congr rfl rfl, rfl, rfl⟩
  unfold buildEntry newStore evaluate
  rw [ends_bind]
  refine ends_external ?_ fun _ w => herror w
  intro r w₁ htask
  obtain ⟨task, taskDump⟩ := r
  dsimp only
  rw [ends_bind]
  refine ends_external ?_ fun _ w => herror w
  intro _ w₂ _
  rw [ends_bind, ends_ofExcept]
  refine ⟨?_, fun _ _ => herror _⟩
  intro dir _
  rw [ends_bind]
  refine ends_external ?_ fun _ w => herror w
  intro _ w₃ _
  simp only [ends_bind, ends_get, ends_modify, ends_pure]
  have hnew := hp.newStore
  refine (ensureStore_ends p.nextStore _ _ { p with
    world := w₃, stores := update p.stores p.nextStore .new, nextStore := p.nextStore + 1 }
    hnew.shards (hnew.stores _)).mono ?_ ?_
  · intro timing q h
    obtain ⟨q', ids, now, htouch, hids, rfl, hnow, hloaded⟩ := h
    obtain ⟨ids', hids', rfl⟩ := hk.parts
    obtain rfl : ids = ids' := Except.ok.inj (hids.symm.trans hids')
    have hq' : Cached env q'.toGlobals := hnew.touchShards htouch
    obtain ⟨cache, world, rfl⟩ := htouch.eq
    refine ⟨⟨?_, rfl, rfl⟩, rfl, fun c' hk' => buildTask_serves hk htask hk', ?_,
      Nat.lt_succ_self _⟩
    · refine hq'.fillStore _ hloaded fun k e hmem hstore => ?_
      exact absurd (hp.entries k e hmem).placed (by rw [hstore]; exact Nat.lt_irrefl _)
    · show RefCatStore.shardIds (update (β := fun _ => RefCatStore S) _ p.nextStore now _) = _
      rw [update_self]
      exact hnow
  · intro exc q hq
    have hkeeps := Keeps.touchShards hnew hq
    exact ⟨hkeeps.cached, hkeeps.table, hkeeps.dump⟩

/-- **Getting or building an entry.**  Where it returns, its key is in the table. -/
theorem obtainEntry_ends (hp : Cached env p.toGlobals) (hk : Keyed env k c) :
    Ends (obtainEntry env k c) p
      (fun r q => Cached env q.toGlobals ∧ r.1.Serves env q.toGlobals k ∧
        (∀ k', k' ∈ q.prepareCommands.keys ↔ k' = k ∨ k' ∈ p.prepareCommands.keys) ∧
        q.taskDump = p.taskDump)
      (fun _ q => Keeps env p q) := by
  unfold obtainEntry
  rw [ends_bind, ends_get]
  split
  · refine Ends.bind (buildEntry_ends hp hk) ?_
    intro r q hends
    obtain ⟨entry, timings⟩ := r
    obtain ⟨hq, hserves⟩ := hends
    rw [ends_bind, ends_modify, ends_pure]
    have htable := hq.table
    refine ⟨⟨?_, ?_, hq.cached.commands.set hk, hq.cached.detector, hq.cached.filtered,
      hq.cached.shards, hq.cached.stores⟩, hserves.congr rfl, ?_, hq.dump⟩
    · exact ((hq.cached.entries.set hserves).evict _).mono fun _ _ he => he.congr rfl
    · intro k' e hmem
      refine OrderedDict.mem_keys_set.mpr ?_
      rcases OrderedDict.mem_set (OrderedDict.mem_of_mem_evict hmem) with hold | hnew
      · exact Or.inr (hq.cached.known k' e hold)
      · exact Or.inl (Prod.mk.inj hnew).1
    · intro k'
      show k' ∈ (q.prepareCommands.set k c).keys ↔ _
      rw [OrderedDict.mem_keys_set, htable]
  · rename_i entry hget
    have hserves := hp.entries.get? hget
    have hmem := OrderedDict.mem_of_get? hget
    have hmoved := hp.moved k
    rw [ends_bind, ends_modify, ends_bind]
    refine (ensureStore_ends entry.refcatStore _ _ { p with
      preparedCache := p.preparedCache.moveToEnd k } hmoved.shards (hmoved.stores _)).mono ?_ ?_
    · intro timing q hc
      obtain ⟨q', ids, now, htouch, hids, rfl, hnow, hloaded⟩ := hc
      rw [ends_pure]
      obtain ⟨ids', hids', rfl⟩ := hk.parts
      obtain rfl : ids = ids' := Except.ok.inj (hids.symm.trans hids')
      have hq' : Cached env q'.toGlobals := hmoved.touchShards htouch
      obtain ⟨cache, world, rfl⟩ := htouch.eq
      -- The store held these very shards already, so whoever else uses it sees no change.
      have hfilled := hq'.fillStore entry.refcatStore hloaded
        fun k' e he hstore => by
          rw [hnow, ← (hq'.entries k' e he).refcat, hstore]
          exact hserves.refcat.symm
      refine ⟨hfilled, hfilled.entries _ entry (OrderedDict.mem_moveToEnd.mpr hmem), ?_, rfl⟩
      intro k'
      refine ⟨Or.inr, ?_⟩
      intro hc
      rcases hc with rfl | h
      · exact hp.known _ entry hmem
      · exact h
    · intro exc q hq
      have hkeeps := Keeps.touchShards hmoved hq
      exact ⟨hkeeps.cached, hkeeps.table, hkeeps.dump⟩

end Entries

/-! ### The live config

`Live c` says that what a job would run under now is what a prepare of `c` on nothing cached would
set up.  Both ways of activating an entry end in it, whichever of the caches were hit.
-/

/-- The live config is what a prepare of `c` alone, on nothing cached, would set up. -/
structure Live (env : Env S) (c : PrepareCommand) (g : Globals S) : Prop where
  task : ∃ task, buildTask env c.configOverrides = .ok (task, g.taskDump) ∧ g.task = some task
  refcat : ∃ ids, shardIdsForPointing env c.boresightRa c.boresightDec = .ok ids ∧
    (g.stores g.refcatStore).shardIds = ids.toFinset ∧
    loadAndReshard env (sortedIds ids.toFinset) = .ok (g.stores g.refcatStore).shards
  calibs : ∃ backend calib, calibBackend env = .ok backend ∧ backend.calibsFor c = .ok calib ∧
    g.calibStore = some (c.physicalFilter, calib)

/-- Two prepares with one key want one config. -/
theorem Live.congr {k : PrepareKey} {c c' : PrepareCommand} {g : Globals S}
    (hrefs : env.RefsIdentify) (hk : Keyed env k c) (hk' : Keyed env k c') (h : Live env c g) :
    Live env c' g := by
  obtain ⟨ids, hids, rfl⟩ := hk.parts
  obtain ⟨ids', hids', heq⟩ := hk'.parts
  obtain ⟨hover, hfilter, hset, htime⟩ := PrepareKey.mk.inj heq
  refine ⟨?_, ?_, ?_⟩
  · rw [← buildTask_congr env hover]
    exact h.task
  · obtain ⟨ids₀, hids₀, hhas, hload⟩ := h.refcat
    obtain rfl : ids = ids₀ := Except.ok.inj (hids.symm.trans hids₀)
    refine ⟨ids', hids', ?_, ?_⟩
    · rw [hhas, hset]
    · rw [← hset]
      exact hload
  · obtain ⟨backend, calib, hb, hcalib, hstore⟩ := h.calibs
    refine ⟨backend, calib, hb, ?_, by rw [← hfilter]; exact hstore⟩
    rw [← hcalib]
    unfold CalibBackend.calibsFor
    rw [(calibBackend_lawful hrefs hb).resolve hfilter htime]

section Activate

variable {p : Process S} {k : PrepareKey} {c : PrepareCommand}

/-- **Activating an entry makes its prepare's config the live one.** -/
theorem activateEntry_ends {entry : PreparedEntry S} (hrefs : env.RefsIdentify)
    (hp : Cached env p.toGlobals) (hk : Keyed env k c) (hentry : entry.Serves env p.toGlobals k) :
    Ends (activateEntry env entry c) p
      (fun _ q => Cached env q.toGlobals ∧ q.prepareCommands = p.prepareCommands ∧
        Live env c q.toGlobals)
      (fun _ q => Keeps env p q) := by
  unfold activateEntry ensureCalib
  rw [ends_bind]
  split
  · rename_i backend hb
    refine (ensureCalibFrom_ends (calibBackend_lawful hrefs hb) (hp.detector _ hb)
      (hp.filtered _ hb)).mono ?_ ?_
    · intro r q hends
      obtain ⟨calib, timing⟩ := r
      obtain ⟨htouch, hcalib, hfilter⟩ := hends
      rw [ends_bind, ends_modify, ends_pure]
      have hq : Cached env q.toGlobals := hp.touchCalibs hb htouch
      obtain ⟨_, _, _, rfl⟩ := htouch.eq
      obtain ⟨ids, hids, rfl⟩ := hk.parts
      have hset : (p.stores entry.refcatStore).shardIds = ids.toFinset := hentry.refcat
      refine ⟨hq.congr rfl rfl, rfl, ⟨entry.task, hentry.task c hk, rfl⟩, ⟨ids, hids, hset, ?_⟩,
        ⟨backend, calib, hb, hcalib, ?_⟩⟩
      · rw [← hset]
        exact hp.stores entry.refcatStore
      · show some (calib.filtered.physicalFilter, calib) = _
        rw [hfilter]
    · intro exc q htouch
      have hq : Cached env q.toGlobals := hp.touchCalibs hb htouch
      obtain ⟨_, _, _, rfl⟩ := htouch.eq
      exact ⟨hq, rfl, rfl⟩
  · rw [ends_throw]
    exact ⟨hp, rfl, rfl⟩

theorem ensureUniverse_ends (hp : Cached env p.toGlobals) :
    Ends (ensureUniverse env) p (fun _ q => Keeps env p q) (fun _ q => Keeps env p q) := by
  unfold ensureUniverse
  rw [ends_bind, ends_get]
  by_cases hbuilt : p.universeBuilt = true
  · rw [if_pos hbuilt, ends_pure]
    exact ⟨hp, rfl, rfl⟩
  · rw [if_neg hbuilt, ends_bind]
    refine ends_external ?_ fun _ w => ⟨hp.congr rfl rfl, rfl, rfl⟩
    intro _ w _
    rw [ends_modify]
    exact ⟨hp.congr rfl rfl, rfl, rfl⟩

/-- What `ensure_prepared` has done before it activates anything. -/
theorem lookUpEntry_ends (hp : Cached env p.toGlobals) :
    Ends (lookUpEntry env c) p
      (fun r q => Cached env q.toGlobals ∧ Keyed env r.1 c ∧ r.2.1.Serves env q.toGlobals r.1 ∧
        (∀ k, k ∈ q.prepareCommands.keys ↔ k = r.1 ∨ k ∈ p.prepareCommands.keys) ∧
        q.taskDump = p.taskDump)
      (fun _ q => Keeps env p q) := by
  unfold lookUpEntry
  refine Ends.bind (ensureUniverse_ends hp) ?_
  intro _ q hq
  rw [ends_bind]
  refine ends_external ?_ fun _ w => ⟨hq.cached.congr rfl rfl, hq.table, hq.dump⟩
  intro k w hk
  rw [ends_bind]
  refine (obtainEntry_ends (p := { q with world := w }) (hq.cached.congr (by rfl) (by rfl)) hk).mono ?_ ?_
  · intro r t hends
    obtain ⟨entry, timings⟩ := r
    obtain ⟨ht, hserves, htable, hdump⟩ := hends
    refine ⟨ht, hk, hserves, fun k' => ?_, hdump.trans hq.dump⟩
    rw [htable k', ← hq.table]
  · exact fun exc t ht => ⟨ht.cached, ht.table.trans hq.table, ht.dump.trans hq.dump⟩

/-- **A prepare that succeeds makes its own config the live one.** -/
theorem ensurePrepared_ends (hrefs : env.RefsIdentify) (hp : Cached env p.toGlobals) :
    Ends (ensurePrepared env c) p
      (fun r q => Cached env q.toGlobals ∧ Keyed env r.1 c ∧ Live env c q.toGlobals)
      (fun _ q => Cached env q.toGlobals ∧ q.taskDump = p.taskDump) := by
  unfold ensurePrepared
  rw [ends_bind]
  refine (lookUpEntry_ends hp).mono ?_ (fun _ _ h => ⟨h.cached, h.dump⟩)
  intro r q hends
  obtain ⟨k, entry, task, refcat⟩ := r
  obtain ⟨hq, hk, hserves, _, hdump⟩ := hends
  rw [ends_bind]
  refine (activateEntry_ends hrefs hq hk hserves).mono ?_ ?_
  · intro calib t hends
    obtain ⟨ht, _, hlive⟩ := hends
    exact ⟨ht, hk, hlive⟩
  · intro exc t ht
    exact ⟨ht.cached, ht.dump.trans hdump⟩

/-- **A push that gets past `ensure_prepared_for_push` runs under its own key's config.** -/
theorem ensurePreparedForPush_ends (hrefs : env.RefsIdentify) (hp : Cached env p.toGlobals) :
    Ends (ensurePreparedForPush env k) p
      (fun _ q => Cached env q.toGlobals ∧ q.prepareCommands = p.prepareCommands ∧
        ∃ c, Keyed env k c ∧ Live env c q.toGlobals)
      (fun _ q => Keeps env p q) := by
  unfold ensurePreparedForPush
  rw [ends_bind, ends_get]
  split
  · rw [ends_throw]
    exact ⟨hp, rfl, rfl⟩
  · rename_i c hget
    have hk : Keyed env k c := hp.commands.get? hget
    have hknown : k ∈ p.prepareCommands.keys := OrderedDict.mem_keys_of_get? hget
    split
    · rename_i entry hcached
      rw [ends_bind, ends_modify, ends_bind]
      have hserves := hp.entries.get? hcached
      refine (activateEntry_ends (p := { p with
        preparedCache := p.preparedCache.moveToEnd k }) hrefs (hp.moved k) hk (hserves.congr (by rfl))).mono ?_ ?_
      · exact fun _ q h => ⟨h.1, h.2.1, c, hk, h.2.2⟩
      · exact fun _ q hq => ⟨hq.cached, hq.table, hq.dump⟩
    · refine Ends.bind (buildEntry_ends hp hk) ?_
      intro r q hends
      obtain ⟨entry, timings⟩ := r
      obtain ⟨hq, hserves⟩ := hends
      rw [ends_bind, ends_modify, ends_bind]
      have hstored : Cached env { q.toGlobals with
          preparedCache := (q.preparedCache.set k entry).evict preparedCacheCap } := by
        refine ⟨((hq.cached.entries.set hserves).evict _).mono fun _ _ he => he.congr rfl, ?_,
          hq.cached.commands, hq.cached.detector, hq.cached.filtered, hq.cached.shards,
          hq.cached.stores⟩
        intro k' e hmem
        rcases OrderedDict.mem_set (OrderedDict.mem_of_mem_evict hmem) with hold | hnew
        · exact hq.cached.known k' e hold
        · rw [(Prod.mk.inj hnew).1]
          show k ∈ q.prepareCommands.keys
          rw [hq.table]
          exact hknown
      refine (activateEntry_ends (p := { q with
        preparedCache := (q.preparedCache.set k entry).evict preparedCacheCap })
        hrefs hstored hk (hserves.congr (by rfl))).mono ?_ ?_
      · exact fun _ t h => ⟨h.1, h.2.1.trans hq.table, c, hk, h.2.2⟩
      · exact fun _ t ht => ⟨ht.cached, ht.table.trans hq.table, ht.dump.trans hq.dump⟩

/-- A key that is not in the table is refused, and nothing is written. -/
theorem ensurePreparedForPush_unknown (h : k ∉ p.prepareCommands.keys) :
    (ensurePreparedForPush env k).outcome p = (.error (neverPrepared k), p) := by
  have hnone : p.prepareCommands.get? k = none := by
    by_contra hne
    exact h (OrderedDict.get?_ne_none.mp hne)
  unfold ensurePreparedForPush
  rw [outcome_bind, outcome_get]
  simp only [hnone]
  rfl

end Activate

end DonutServer
