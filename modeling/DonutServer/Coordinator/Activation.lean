/-
A failed activation leaves the live config as it was.

Everything that may fail comes before the first write to the live config, but the steps
before it write too: they turn the caches over, and on a cache hit they ensure the store of
an entry that may be the live one.  `Placed` is what makes that harmless.  The store of an
entry holds the shard set of the entry's key, so ensuring it for a prepare of that key
finds it reused; and a store that is filled is always a new one, which nothing uses yet.
-/
import DonutServer.Coordinator.ShardCache
import DonutServer.Coordinator.Recertify

namespace DonutServer

open Effect Function

variable {S : Stack} {envs : Env S → Prop} {env env' : Env S}

/-! ### The live config

Five globals make up what a job runs under.  They are written together, in a row, by
`_activate_entry`; between two of the assignments nothing can raise.
-/

/-- What a job would run under: the active key, the task and its dump, the calibs, and the
store with the shards it holds. -/
structure LiveConfig (S : Stack) where
  activeKey : Option PrepareKey
  task : Option S.Task
  taskDump : String
  calibStore : Option (String × CalibSet S)
  refcatStore : StoreId
  held : RefCatStore S

def Globals.live (g : Globals S) : LiveConfig S :=
  ⟨g.activeKey, g.task, g.taskDump, g.calibStore, g.refcatStore, g.stores g.refcatStore⟩

/-! ### One sky

The store of an entry was filled when its key was made, under the pixelization of that time.  That
the same pointing touches the same pixels later is a fact about the sky and not about the process,
and it is the only thing assumed of what is outside from one command to the next.
-/

/-- The pixels a circle touches are the same at all times, whatever else changes: the pixelization
is a fixed one. -/
def SameSky (envs : Env S → Prop) : Prop :=
  ∀ env env', envs env → envs env' → env.envelope = env'.envelope

/-- Under one sky a pointing has one set of shards. -/
theorem shardIdsForPointing_congr (hsky : env.envelope = env'.envelope) {ra dec : ℚ}
    {ids : List Nat} (h : shardIdsForPointing env ra dec = .ok ids) :
    shardIdsForPointing env' ra dec = .ok ids := by
  unfold shardIdsForPointing at h ⊢
  split at h
  · exact absurd h (by simp)
  · rename_i hdec
    rw [if_neg hdec, ← hsky]
    exact h

/-- So the key of a prepare does not change with time. -/
theorem prepareKey_congr (hsky : env.envelope = env'.envelope) {c : PrepareCommand}
    {k : PrepareKey} (h : prepareKey env c = .ok k) : prepareKey env' c = .ok k := by
  obtain ⟨ids, hids, h⟩ := Except.bind_eq_ok.mp h
  exact Except.bind_eq_ok.mpr ⟨ids, shardIdsForPointing_congr hsky hids, h⟩

/-! ### Where stores are

A prepare writes stores in two places: it fills a new one for an entry it builds, and it ensures
the one of an entry it finds.  The first is nobody's yet.  The second may be the live store, and
there `Placed` is needed: the store already holds what it is asked for, so that ensuring it writes
nothing and reads no file.
-/

/-- An entry in the cache, and the store it has. -/
structure PreparedEntry.Placed (stores : StoreId → RefCatStore S) (next : StoreId)
    (k : PrepareKey) (entry : PreparedEntry S) : Prop where
  key : entry.key = k
  below : entry.refcatStore < next
  refcat : (stores entry.refcatStore).shardIds = k.refcat

/-- Every store in use has been made, that of an entry holds its key's shards, and the
table has each key's own command. -/
structure Placed (env : Env S) (g : Globals S) : Prop where
  live : g.refcatStore < g.nextStore
  entries : g.preparedCache.Forall (PreparedEntry.Placed g.stores g.nextStore)
  commands : g.prepareCommands.Forall (Keyed env)

/-- A process just started has no entry and no store in use. -/
theorem placed_fresh : Placed env (Globals.fresh : Globals S) :=
  ⟨Nat.zero_lt_one, OrderedDict.forall_empty _, OrderedDict.forall_empty _⟩

/-- Only stores that were not made before are written, and none of the live config, the
prepared cache, the table and the filter cache. -/
structure Allots (p q : Process S) : Prop where
  live : (q.activeKey, q.task, q.taskDump, q.calibStore, q.refcatStore) =
    (p.activeKey, p.task, p.taskDump, p.calibStore, p.refcatStore)
  caches : (q.preparedCache, q.prepareCommands, q.filterCalibCache) =
    (p.preparedCache, p.prepareCommands, p.filterCalibCache)
  next : p.nextStore ≤ q.nextStore
  stores : ∀ i < p.nextStore, q.stores i = p.stores i

section Allots

variable {p q r : Process S}

theorem Allots.outside (p : Process S) (w : World S) : Allots p { p with world := w } :=
  ⟨rfl, rfl, Nat.le_refl _, fun _ _ => rfl⟩

/-- The live config is what it was. -/
theorem Allots.sameLive (h : Allots p q) (hp : p.refcatStore < p.nextStore) :
    q.live = p.live := by
  obtain ⟨hkey, hrest⟩ := Prod.mk.inj h.live
  obtain ⟨htask, hrest⟩ := Prod.mk.inj hrest
  obtain ⟨hdump, hrest⟩ := Prod.mk.inj hrest
  obtain ⟨hcalib, hstore⟩ := Prod.mk.inj hrest
  unfold Globals.live
  rw [hkey, htask, hdump, hcalib, hstore, h.stores _ hp]

/-- And what was placed still is. -/
theorem Allots.placed (h : Allots p q) (hp : Placed env p.toGlobals) : Placed env q.toGlobals := by
  obtain ⟨hcache, hrest⟩ := Prod.mk.inj h.caches
  obtain ⟨hcommands, -⟩ := Prod.mk.inj hrest
  have hstore : q.refcatStore = p.refcatStore :=
    (Prod.mk.inj (Prod.mk.inj (Prod.mk.inj (Prod.mk.inj h.live).2).2).2).2
  refine ⟨?_, ?_, ?_⟩
  · rw [hstore]
    exact Nat.lt_of_lt_of_le hp.live h.next
  · rw [hcache]
    intro k entry hmem
    have hentry := hp.entries k entry hmem
    refine ⟨hentry.key, Nat.lt_of_lt_of_le hentry.below h.next, ?_⟩
    rw [h.stores _ hentry.below]
    exact hentry.refcat
  · rw [hcommands]
    exact hp.commands

end Allots

/-! ### What each step writes

One lemma for each function of a prepare, which says where it can end and what it has written by
then.  The calibs are dealt with by two relations, the wider one for both halves and the narrower
one for the detector half's slot, because the filter half is tried after the detector half has been
written.
-/

section Steps

variable {p : Process S} {k : PrepareKey} {c : PrepareCommand}

/-- **Ensuring a store** fills it with the shards of the pointing, writes nothing where it
holds them, and writes no store where it raises. -/
theorem ensureStore_writes (store : StoreId) (ra dec : ℚ) (p : Process S) :
    Ends (ensureStore env store ra dec) p
      (fun _ q => ∃ ids cache w stores, shardIdsForPointing env ra dec = .ok ids ∧
        q = { p with shardCache := cache, world := w, stores := stores } ∧
        (stores store).shardIds = ids.toFinset ∧ (∀ i ≠ store, stores i = p.stores i) ∧
        ((p.stores store).shardIds = ids.toFinset → stores = p.stores))
      (fun _ q => ∃ cache w, q = { p with shardCache := cache, world := w }) := by
  refine (ensureStore_asks env store ra dec p).mono ?_ ?_
  · intro timing q hends
    obtain ⟨ids, hids, -, hcase⟩ := hends
    rcases hcase with ⟨-, hset, w, rfl⟩ | ⟨w, r, t, hasks, hrun, rfl⟩
    · exact ⟨ids, _, w, _, hids, rfl, hset.symm, fun _ _ => rfl, fun _ => rfl⟩
    · obtain ⟨cache, w', rfl⟩ := ((ensureShards_uses env ids.toFinset
        { p with world := w }).of_ok hrun).2.2.2
      refine ⟨ids, cache, w', _, hids, rfl, ?_, fun i hi => update_of_ne hi _ _, ?_⟩
      · rw [update_self]
        rfl
      · intro hset
        unfold ensureAsks at hasks
        split at hasks
        · rename_i ids' _ hpoint
          rw [external_outcome] at hpoint
          split at hasks
          · exact absurd hasks (by simp)
          · rename_i hnot
            rw [(Prod.mk.inj (Option.some.inj hasks)).1] at hnot
            exact absurd hset.symm hnot
        · exact absurd hasks (by simp)
  · intro exc q hends
    rcases hends with ⟨-, w, rfl⟩ | ⟨wanted, w, exc', -, hrun⟩
    · exact ⟨_, w, rfl⟩
    · obtain ⟨cache, w', rfl⟩ := ((ensureShards_uses env wanted
        { p with world := w }).of_error hrun).2.eq
      exact ⟨cache, w', rfl⟩

/-- **Building an entry** makes a store of its own and fills that. -/
theorem buildEntry_allots (p : Process S) :
    Ends (buildEntry env k c) p
      (fun r q => Allots p q ∧ r.1.key = k ∧ r.1.refcatStore < q.nextStore ∧
        buildTask env c.configOverrides = .ok (r.1.task, r.1.taskDump) ∧
        ∃ ids, shardIdsForPointing env c.boresightRa c.boresightDec = .ok ids ∧
          (q.stores r.1.refcatStore).shardIds = ids.toFinset)
      (fun _ q => Allots p q) := by
  unfold buildEntry newStore evaluate
  rw [ends_bind]
  refine ends_external ?_ fun _ w => .outside p w
  intro r w₁ htask
  obtain ⟨task, taskDump⟩ := r
  dsimp only
  rw [ends_bind]
  refine ends_external ?_ fun _ w => .outside p w
  intro _ w₂ _
  rw [ends_bind, ends_ofExcept]
  refine ⟨?_, fun _ _ => .outside p _⟩
  intro dir _
  rw [ends_bind]
  refine ends_external ?_ fun _ w => .outside p w
  intro _ w₃ _
  simp only [ends_bind, ends_get, ends_modify, ends_pure]
  have hmade : ∀ i < p.nextStore, update p.stores p.nextStore .new i = p.stores i :=
    fun i hi => update_of_ne (Nat.ne_of_lt hi) _ _
  refine (ensureStore_writes p.nextStore _ _ { p with
    world := w₃, stores := update p.stores p.nextStore .new, nextStore := p.nextStore + 1 }).mono
      ?_ ?_
  · intro timing q hends
    obtain ⟨ids, cache, w, stores, hids, rfl, hfilled, hothers, -⟩ := hends
    refine ⟨⟨rfl, rfl, Nat.le_succ _, ?_⟩, trivial, Nat.lt_succ_self _, htask, ids, hids, hfilled⟩
    intro i hi
    exact (hothers i (Nat.ne_of_lt hi)).trans (hmade i hi)
  · intro exc q hends
    obtain ⟨cache, w, rfl⟩ := hends
    exact ⟨rfl, rfl, Nat.le_succ _, hmade⟩

/-- Only the calib caches are written. -/
def TurnsCalibs (p q : Process S) : Prop := ∃ detector filtered w, q = { p with
  detectorCalibCache := detector, filterCalibCache := filtered, world := w }

theorem TurnsCalibs.refl (p : Process S) : TurnsCalibs p p := ⟨_, _, _, rfl⟩

theorem TurnsCalibs.trans {p q r : Process S} (h : TurnsCalibs p q) (h' : TurnsCalibs q r) :
    TurnsCalibs p r := by
  obtain ⟨_, _, _, rfl⟩ := h
  obtain ⟨_, _, _, rfl⟩ := h'
  exact ⟨_, _, _, rfl⟩

theorem external_turnsCalibs {α : Type} (x : Except Exn α) :
    Within (TurnsCalibs (S := S)) (external x) :=
  fun _ => ends_external (fun _ w _ => ⟨_, _, w, rfl⟩) fun _ w => ⟨_, _, w, rfl⟩

/-- Only the detector half's slot is written. -/
def TurnsDetector (p q : Process S) : Prop := ∃ detector w, q = { p with
  detectorCalibCache := detector, world := w }

theorem ensureDetectorCalibs_turns (b : CalibBackend S) (ids : CalibIds) (r : b.Resolved) :
    Within TurnsDetector (ensureDetectorCalibs b ids r) := by
  have hrefl : ∀ p : Process S, TurnsDetector p p := fun p => ⟨_, _, rfl⟩
  have htrans : ∀ p q r : Process S, TurnsDetector p q → TurnsDetector q r → TurnsDetector p r := by
    intro p q r h h'
    obtain ⟨_, _, rfl⟩ := h
    obtain ⟨_, _, rfl⟩ := h'
    exact ⟨_, _, rfl⟩
  have hload : Within TurnsDetector (do
      let detector ← external (b.loadDetector r)
      modify fun p => { p with detectorCalibCache := some (ids.detector, detector) }
      pure (detector, false) : Code S (DetectorCalibs S × Bool)) :=
    .bind htrans (fun _ => ends_external (fun _ w _ => ⟨_, w, rfl⟩) fun _ w => ⟨_, w, rfl⟩) fun _ =>
      .bind htrans (.write fun _ => ⟨_, _, rfl⟩) fun _ => .pure hrefl _
  unfold ensureDetectorCalibs
  refine .bind htrans (.get hrefl) fun p => ?_
  split
  · split
    · exact .pure hrefl _
    · exact hload
  · exact hload

theorem TurnsDetector.turnsCalibs {p q : Process S} (h : TurnsDetector p q) : TurnsCalibs p q := by
  obtain ⟨_, _, rfl⟩ := h
  exact ⟨_, _, _, rfl⟩

theorem ensureFilterCalibs_turnsCalibs (b : CalibBackend S) (ids : CalibIds) (r : b.Resolved)
    (detector : DetectorCalibs S) : Within TurnsCalibs (ensureFilterCalibs b ids r detector) := by
  have htrans : ∀ p q r : Process S, TurnsCalibs p q → TurnsCalibs q r → TurnsCalibs p r :=
    fun _ _ _ => .trans
  unfold ensureFilterCalibs
  refine .bind htrans (.get .refl) fun p => ?_
  split
  · exact .bind htrans (.write fun _ => ⟨_, _, _, rfl⟩) fun _ => .pure .refl _
  · exact .bind htrans (external_turnsCalibs _) fun _ =>
      .bind htrans (.write fun _ => ⟨_, _, _, rfl⟩) fun _ => .pure .refl _

theorem ensureCalib_turnsCalibs (c : PrepareCommand) : Within TurnsCalibs (ensureCalib env c) := by
  have htrans : ∀ p q r : Process S, TurnsCalibs p q → TurnsCalibs q r → TurnsCalibs p r :=
    fun _ _ _ => .trans
  unfold ensureCalib
  split
  · unfold ensureCalibFrom
    exact .bind htrans (external_turnsCalibs _) fun found =>
      .bind htrans ((ensureDetectorCalibs_turns _ _ _).mono fun _ _ => TurnsDetector.turnsCalibs) fun _ =>
        .bind htrans (ensureFilterCalibs_turnsCalibs _ _ _ _) fun _ => .pure .refl _
  · exact .throw .refl _

/-- What activating an entry with these calibs leaves. -/
def activated (entry : PreparedEntry S) (calib : CalibSet S) (q : Process S) : Process S :=
  { q with
    activeKey := some entry.key
    task := some entry.task
    taskDump := entry.taskDump
    calibStore := some (calib.filtered.physicalFilter, calib)
    refcatStore := entry.refcatStore }

/-- **Activating fails before it writes anything of the live config.** All that may raise in it is
the ensuring of the calibs, and the assignments come after that; so where it raises only the calib
caches differ, and where it returns the live config is the entry with the calibs. -/
theorem activateEntry_writes (entry : PreparedEntry S) (p : Process S) :
    Ends (activateEntry env entry c) p
      (fun _ q => ∃ calib timing t, TurnsCalibs p t ∧ q = activated entry calib t ∧
        (ensureCalib env c).outcome p = (.ok (calib, timing), t))
      (fun exc q => TurnsCalibs p q ∧ (ensureCalib env c).outcome p = (.error exc, q)) := by
  unfold activateEntry
  refine Ends.bind (ensureCalib_turnsCalibs c p).traced ?_
  intro r q hends
  obtain ⟨calib, timing⟩ := r
  rw [ends_bind, ends_modify, ends_pure]
  exact ⟨calib, timing, q, hends.1, rfl, hends.2⟩

end Steps

/-! ### What a prepare and a push leave

The two ways to a new live config, put together from the lemmas above.  Each keeps everything
placed, whether it returns or raises, and where it raises the live config is the one it started
with.
-/

section Placed

variable {p q : Process S} {k : PrepareKey} {c : PrepareCommand}

theorem TurnsCalibs.sameLive (h : TurnsCalibs p q) : q.live = p.live := by
  obtain ⟨_, _, _, rfl⟩ := h
  rfl

theorem TurnsCalibs.placed (h : TurnsCalibs p q) (hp : Placed env p.toGlobals) :
    Placed env q.toGlobals := by
  obtain ⟨_, _, _, rfl⟩ := h
  exact ⟨hp.live, hp.entries, hp.commands⟩

/-- Moving an entry to the end moves no store. -/
theorem Placed.moveToEnd {g : Globals S} (h : Placed env g) (k : PrepareKey) :
    Placed env { g with preparedCache := g.preparedCache.moveToEnd k } :=
  ⟨h.live, h.entries.moveToEnd k, h.commands⟩

/-- An entry that is placed may be stored. -/
theorem Placed.store {g : Globals S} (h : Placed env g) {entry : PreparedEntry S}
    (hentry : entry.Placed g.stores g.nextStore k) : Placed env { g with
      preparedCache := (g.preparedCache.set k entry).evict preparedCacheCap } :=
  ⟨h.live, (h.entries.set hentry).evict _,
    h.commands⟩

/-- What was built for a prepare is placed under its key. -/
theorem buildEntry_placed (hp : Placed env p.toGlobals) (hk : Keyed env k c) :
    Ends (buildEntry env k c) p
      (fun r q => Placed env q.toGlobals ∧ q.live = p.live ∧ r.1.Placed q.stores q.nextStore k)
      (fun _ q => Placed env q.toGlobals ∧ q.live = p.live) := by
  refine (buildEntry_allots p).mono ?_ ?_
  · intro r q hends
    obtain ⟨hallots, hkey, hbelow, -, ids, hids, hset⟩ := hends
    obtain ⟨ids', hids', rfl⟩ := hk.parts
    obtain rfl : ids = ids' := Except.ok.inj (hids.symm.trans hids')
    exact ⟨hallots.placed hp, hallots.sameLive hp.live, hkey, hbelow, hset⟩
  · intro exc q hallots
    exact ⟨hallots.placed hp, hallots.sameLive hp.live⟩

/-- Activating a placed entry keeps everything placed, and where it fails the live config is
what it was. -/
theorem activateEntry_placed {entry : PreparedEntry S} (hp : Placed env p.toGlobals)
    (hentry : entry.refcatStore < p.nextStore) :
    Ends (activateEntry env entry c) p (fun _ q => Placed env q.toGlobals)
      (fun _ q => Placed env q.toGlobals ∧ q.live = p.live) := by
  refine (activateEntry_writes entry p).mono ?_ ?_
  · intro r q hends
    obtain ⟨calib, timing, t, hturns, rfl, -⟩ := hends
    have ht := hturns.placed hp
    obtain ⟨_, _, _, rfl⟩ := hturns
    exact ⟨hentry, ht.entries, ht.commands⟩
  · intro exc q hends
    exact ⟨hends.1.placed hp, hends.1.sameLive⟩

/-- **Getting or building an entry leaves the live config as it was**, whether it returns or
raises: on a hit the store holds the prepare's shards already. -/
theorem obtainEntry_placed (hp : Placed env p.toGlobals) (hk : Keyed env k c) :
    Ends (obtainEntry env k c) p
      (fun r q => Placed env q.toGlobals ∧ q.live = p.live ∧ r.1.Placed q.stores q.nextStore k)
      (fun _ q => Placed env q.toGlobals ∧ q.live = p.live) := by
  unfold obtainEntry
  rw [ends_bind, ends_get]
  split
  · refine Ends.bind (buildEntry_placed hp hk) ?_
    intro r q hends
    obtain ⟨entry, timings⟩ := r
    obtain ⟨hq, hlive, hentry⟩ := hends
    rw [ends_bind, ends_modify, ends_pure]
    have hstored := hq.store hentry
    exact ⟨⟨hstored.live, hstored.entries,
      hstored.commands.set hk⟩, hlive, hentry.key, hentry.below, hentry.refcat⟩
  · rename_i entry hget
    have hentry := hp.entries.get? hget
    have hmoved := hp.moveToEnd k
    rw [ends_bind, ends_modify, ends_bind]
    refine (ensureStore_writes entry.refcatStore _ _ { p with
      preparedCache := p.preparedCache.moveToEnd k }).mono ?_ ?_
    · intro timing q hends
      obtain ⟨ids, cache, w, stores, hids, rfl, -, -, hsame⟩ := hends
      rw [ends_pure]
      obtain ⟨ids', hids', rfl⟩ := hk.parts
      obtain rfl : ids = ids' := Except.ok.inj (hids.symm.trans hids')
      obtain rfl : stores = p.stores := hsame hentry.refcat
      exact ⟨⟨hmoved.live, hmoved.entries, hmoved.commands⟩, rfl, hentry⟩
    · intro exc q hends
      obtain ⟨cache, w, rfl⟩ := hends
      exact ⟨⟨hmoved.live, hmoved.entries, hmoved.commands⟩, rfl⟩

theorem lookUpEntry_placed (hp : Placed env p.toGlobals) :
    Ends (lookUpEntry env c) p
      (fun r q => Placed env q.toGlobals ∧ q.live = p.live ∧ r.2.1.refcatStore < q.nextStore)
      (fun _ q => Placed env q.toGlobals ∧ q.live = p.live) := by
  have hbuilt : Ends (ensureUniverse env) p (fun _ q => ∃ b w, q = { p with
        universeBuilt := b, world := w }) (fun _ q => ∃ b w, q = { p with
        universeBuilt := b, world := w }) := by
    unfold ensureUniverse
    rw [ends_bind, ends_get]
    split
    · exact ⟨_, _, rfl⟩
    · rw [ends_bind]
      refine ends_external ?_ fun _ w => ⟨_, w, rfl⟩
      intro _ w _
      exact ⟨_, w, rfl⟩
  unfold lookUpEntry
  rw [ends_bind]
  refine hbuilt.mono ?_ ?_
  · intro _ q hends
    obtain ⟨b, w, rfl⟩ := hends
    have hq : Placed env { p.toGlobals with universeBuilt := b } :=
      ⟨hp.live, hp.entries, hp.commands⟩
    rw [ends_bind]
    refine ends_external ?_ fun _ _ => ⟨hq, rfl⟩
    intro k w' hk
    rw [ends_bind]
    refine (obtainEntry_placed (p := { p with universeBuilt := b, world := w' }) hq hk).mono ?_
      (fun _ _ h => h)
    intro r t hends
    exact ⟨hends.1, hends.2.1, hends.2.2.below⟩
  · intro exc q hends
    obtain ⟨b, w, rfl⟩ := hends
    exact ⟨⟨hp.live, hp.entries, hp.commands⟩, rfl⟩

/-- **A prepare that fails leaves the live config as it was.** -/
theorem ensurePrepared_placed (hp : Placed env p.toGlobals) :
    Ends (ensurePrepared env c) p (fun _ q => Placed env q.toGlobals)
      (fun _ q => Placed env q.toGlobals ∧ q.live = p.live) := by
  unfold ensurePrepared
  refine Ends.bind (lookUpEntry_placed hp) ?_
  intro r q hends
  obtain ⟨k, entry, task, refcat⟩ := r
  obtain ⟨hq, hlive, hbelow⟩ := hends
  rw [ends_bind]
  refine (activateEntry_placed hq hbelow).mono (fun _ _ h => h) ?_
  intro exc t ht
  exact ⟨ht.1, ht.2.trans hlive⟩

/-- **So does a push or an ingest** that cannot activate the entry it names. -/
theorem ensurePreparedForPush_placed (hp : Placed env p.toGlobals) :
    Ends (ensurePreparedForPush env k) p (fun _ q => Placed env q.toGlobals)
      (fun _ q => Placed env q.toGlobals ∧ q.live = p.live) := by
  unfold ensurePreparedForPush
  rw [ends_bind, ends_get]
  split
  · exact ⟨hp, rfl⟩
  · rename_i c hget
    have hk : Keyed env k c := hp.commands.get? hget
    split
    · rename_i entry hcached
      rw [ends_bind, ends_modify, ends_bind]
      exact activateEntry_placed (p := { p with preparedCache := p.preparedCache.moveToEnd k })
        (hp.moveToEnd k) (hp.entries.get? hcached).below
    · refine Ends.bind (buildEntry_placed hp hk) ?_
      intro r q hends
      obtain ⟨entry, timings⟩ := r
      obtain ⟨hq, hlive, hentry⟩ := hends
      rw [ends_bind, ends_modify, ends_bind]
      refine (activateEntry_placed (p := { q with
        preparedCache := (q.preparedCache.set k entry).evict preparedCacheCap })
        (hq.store hentry) hentry.below).mono (fun _ _ h => h) ?_
      intro exc t ht
      exact ⟨ht.1, ht.2.trans hlive⟩

end Placed

/-! ### Histories

A history is any list of commands, each with what is outside at its time.  Everything stays placed
over all of it, by induction on the commands that have been served, with no assumption on which of
them failed.
-/

/-- What is placed under one sky is placed under the same sky later. -/
theorem Placed.sky {g : Globals S} (h : Placed env g) (hsky : env.envelope = env'.envelope) :
    Placed env' g :=
  ⟨h.live, h.entries, h.commands.mono fun _ _ hk => prepareKey_congr hsky hk⟩

theorem Placed.reads {p q : Process S} (h : Placed env p.toGlobals) (hr : Reads p q) :
    Placed env q.toGlobals := by
  obtain ⟨_, _, rfl⟩ := hr
  exact ⟨h.live, h.entries, h.commands⟩

theorem activateFor_placed {p : Process S} (key : Option PrepareKey)
    (hp : Placed env p.toGlobals) :
    Ends (activateFor env key) p (fun _ q => Placed env q.toGlobals)
      (fun _ q => Placed env q.toGlobals) := by
  unfold activateFor
  split
  · exact hp
  · rw [ends_bind]
    exact (ensurePreparedForPush_placed hp).mono (fun _ _ h => h) fun _ _ h => h.1

/-- Every command keeps everything placed. -/
theorem body_placed {p : Process S} (command : Command) (hp : Placed env p.toGlobals) :
    Ends (body env command) p (fun _ q => Placed env q.toGlobals)
      (fun _ q => Placed env q.toGlobals) := by
  refine body_ends (P := fun q => Placed env q.toGlobals) (fun _ _ => hp)
    (fun _ _ hq ht => hq.reads ht) ?_ ?_ ?_
  · intro c _
    exact (ensurePrepared_placed hp).mono (fun _ _ h => h) fun _ _ h => h.1
  · intro _ _ _ key _
    exact activateFor_placed key hp
  · intro _ _ _ key _
    exact activateFor_placed key hp

theorem Moment.serve_placed {m : Moment S} {g : Globals S} (hg : Placed m.env g) :
    Placed m.env (m.serve g) :=
  Moment.serve_ends (P := Placed m.env) (fun _ _ h => ⟨h.live, h.entries, h.commands⟩)
    (body_placed (p := ⟨g, m.world⟩) m.command hg)

/-- After any history everything is placed. -/
theorem served_placed (hsky : SameSky envs) {history : List (Moment S)}
    (henvs : ∀ m ∈ history, envs m.env) (henv : envs env) : Placed env (served history) := by
  induction history using List.reverseRecOn generalizing env with
  | nil => exact placed_fresh
  | append_singleton rest m ih =>
      have hm : envs m.env := henvs m (by simp)
      have hrest := ih (fun m' hm' => henvs m' (List.mem_append_left _ hm')) hm
      unfold served at hrest ⊢
      rw [List.foldl_append]
      exact (Moment.serve_placed hrest).sky (hsky _ _ hm henv)

/-- `ensure_prepared` raises on a prepare, or `ensure_prepared_for_push` on a job that names
a key. -/
def Moment.ActivationFails (g : Globals S) (m : Moment S) : Prop :=
  match m.command with
  | .prepare c => ∃ exc q, (ensurePrepared m.env c).outcome ⟨g, m.world⟩ = (.error exc, q)
  | .push _ _ _ (some k) =>
      ∃ exc q, (ensurePreparedForPush m.env k).outcome ⟨g, m.world⟩ = (.error exc, q)
  | .ingest _ _ _ (some k) =>
      ∃ exc q, (ensurePreparedForPush m.env k).outcome ⟨g, m.world⟩ = (.error exc, q)
  | _ => False

/-- A command that raises in its activation leaves what the activation leaves. -/
theorem Moment.serve_activationFails {m : Moment S} {g : Globals S} (hg : Placed m.env g)
    (hfails : m.ActivationFails g) : (m.serve g).live = g.live := by
  have hraise : ∀ {α : Type} (activation : Code S α) (rest : α → Code S Msg) exc q,
      activation.outcome ⟨g, m.world⟩ = (.error exc, q) → q.live = g.live →
      body m.env m.command = activation >>= rest → (m.serve g).live = g.live := by
    intro α activation rest exc q hrun hlive hbody
    have hattempt : attempt m.env m.command ⟨g, m.world⟩ = (failure m.command exc, q) := by
      unfold attempt
      rw [hbody, outcome_bind, outcome_bind, hrun]
    unfold serve coordinatorProgram settle
    dsimp only
    rw [hattempt]
    split
    · exact hlive
    · exact hlive
  have hpush : ∀ (k : PrepareKey) (rest : Unit → Code S Msg) exc q,
      (ensurePreparedForPush m.env k).outcome ⟨g, m.world⟩ = (.error exc, q) →
      body m.env m.command = activateFor m.env (some k) >>= rest → (m.serve g).live = g.live := by
    intro k rest exc q hrun hbody
    refine hraise (activateFor m.env (some k)) rest exc q ?_
      ((ensurePreparedForPush_placed (p := ⟨g, m.world⟩) hg).of_error hrun).2 hbody
    unfold activateFor
    rw [outcome_bind, hrun]
  obtain ⟨env, world, command⟩ := m
  unfold ActivationFails at hfails
  split at hfails
  · rename_i c hcommand
    obtain rfl : command = .prepare c := hcommand
    obtain ⟨exc, q, hrun⟩ := hfails
    exact hraise (ensurePrepared env c) _ exc q hrun
      ((ensurePrepared_placed (p := ⟨g, world⟩) hg).of_error hrun).2 rfl
  · rename_i jobId layout numWorkers k hcommand
    obtain rfl : command = .push jobId layout numWorkers (some k) := hcommand
    obtain ⟨exc, q, hrun⟩ := hfails
    exact hpush k _ exc q hrun rfl
  · rename_i jobId directory numWorkers k hcommand
    obtain rfl : command = .ingest jobId directory numWorkers (some k) := hcommand
    obtain ⟨exc, q, hrun⟩ := hfails
    exact hpush k _ exc q hrun rfl
  · exact hfails.elim

/-- **A failed activation leaves the live config as it was.**  After any history, whatever
else is outside by now, an `ensure_prepared` or `ensure_prepared_for_push` that raises, at
whichever step, leaves the live config and the shards its store holds; and so does the
command it is part of. -/
theorem failed_activation_keeps_config (hsky : SameSky envs) {history : List (Moment S)}
    (henvs : ∀ m ∈ history, envs m.env) {m : Moment S} (henv : envs m.env) :
    (∀ c exc q, (ensurePrepared m.env c).outcome ⟨served history, m.world⟩ = (.error exc, q) →
      q.live = (served history).live) ∧
    (∀ k exc q, (ensurePreparedForPush m.env k).outcome ⟨served history, m.world⟩ =
      (.error exc, q) → q.live = (served history).live) ∧
    (m.ActivationFails (served history) →
      (m.serve (served history)).live = (served history).live) := by
  have hplaced : Placed m.env (served history) := served_placed hsky henvs henv
  refine ⟨?_, ?_, Moment.serve_activationFails hplaced⟩
  · intro c exc q hrun
    exact ((ensurePrepared_placed (p := ⟨served history, m.world⟩) hplaced).of_error hrun).2
  · intro k exc q hrun
    exact ((ensurePreparedForPush_placed (p := ⟨served history, m.world⟩) hplaced).of_error hrun).2

/-- A prepare on the bench, with these faults ahead. -/
def benchMoment (physicalFilter : String) (faults : List (Option Exn)) : Moment benchStack :=
  ⟨benchEnv, { benchWorld with faults := faults }, .prepare (benchPrepare physicalFilter)⟩

/-- The bench has one sky, whatever is in its files. -/
theorem benchEnv_sky : SameSky (· = benchEnv) := by
  intro env env' h h'
  rw [h, h']

/-- The flats of the second prepare do not load: the first one's config stays live. -/
theorem failed_activation_keeps_config_flats :
    (served [benchMoment "r_57" []]).activeKey = some (benchKey "r_57") ∧
    ((benchMoment "g_6" (List.replicate 6 none ++ [some (.runtime "lost")])).serve
      (served [benchMoment "r_57" []])).live = (served [benchMoment "r_57" []]).live := by
  have henvs : ∀ m ∈ [benchMoment "r_57" []], m.env = benchEnv := by
    intro m hm
    rw [List.mem_singleton.mp hm]
    rfl
  have henv : (benchMoment "g_6" (List.replicate 6 none ++ [some (.runtime "lost")])).env = benchEnv :=
    rfl
  exact ⟨rfl, (failed_activation_keeps_config benchEnv_sky henvs henv).2.2 ⟨_, _, rfl⟩⟩

end DonutServer
