/-
Calibs that are recertified while the process lives.

The registry of a butler repo may answer the same question differently at every prepare
and every push.  What it may not do is change what an id stands for.  `CalibsCached` says
of the two caches that each half stands under the identity of the very datasets it was
loaded from; every command keeps that, whatever fails on the way, and so what is composed
for a prepare is what resolving at that moment and loading afresh would give.
-/
import DonutServer.Coordinator.Isolation

namespace DonutServer

open Function Effect

variable {S : Stack} {envs : Env S → Prop} {env env' : Env S}

/-! ### A repo over time

The states of a repo share their datasets and differ in which of them the registry finds.  A calib
half is loaded from some datasets, and from the same datasets it is the same half at every time;
that is all that is needed of the repo, and it is why a half may be kept as long as its ids are
asked for.
-/

/-- The states a repo goes through.  Its registry describes what it was asked for, and an id
determines the dataset's type, data id and content. -/
structure Registries (envs : Env S → Prop) : Prop where
  butler : ∀ {env}, envs env → calibBackend env = .ok (butlerCalibBackend env)
  agree : ∀ {env env'}, envs env → envs env' → env.RefsAgree env'
  content : ∀ {env env' ref ref' calib calib'}, envs env → envs env' →
    env.getDataset ref = .ok calib → env'.getDataset ref' = .ok calib' → ref.id = ref'.id →
      calib = calib'

/-- The detector half was loaded from these datasets, at one time or another. -/
def LoadedDetector (envs : Env S → Prop) (refs : List (String × Nat × DatasetRef))
    (detector : DetectorCalibs S) : Prop :=
  ∃ env, envs env ∧ ∃ r : FoundCalibs, r.detectorRefs = refs ∧
    (butlerCalibBackend env).loadDetector r = .ok detector

/-- The filter half was loaded from these datasets, at one time or another. -/
def LoadedFilter (envs : Env S → Prop) (refs : List (String × Nat × DatasetRef))
    (physicalFilter : String) (filtered : FilterCalibs S) : Prop :=
  ∃ env, envs env ∧ ∃ (r : FoundCalibs) (ids : CalibIds) (detector : DetectorCalibs S),
    r.filterRefs = refs ∧ r.physicalFilter = physicalFilter ∧
      (butlerCalibBackend env).loadFilter r ids detector = .ok filtered

/-- Getting the same datasets at two times gives the same calibs. -/
theorem getAll_congr (hreg : Registries envs) (henv : envs env) (henv' : envs env')
    {refs : List (String × Nat × DatasetRef)} :
    ∀ {out byType byType' : OrderedDict String (OrderedDict String S.Calib)},
      getAll env refs out = .ok byType → getAll env' refs out = .ok byType' →
        byType = byType' := by
  induction refs with
  | nil =>
      intro out byType byType' h h'
      exact Except.ok.inj (h.symm.trans h')
  | cons x rest ih =>
      intro out byType byType' h h'
      obtain ⟨datasetType, id, ref⟩ := x
      unfold getAll at h h'
      obtain ⟨name, hname, h⟩ := Except.bind_eq_ok.mp h
      obtain ⟨name', hname', h'⟩ := Except.bind_eq_ok.mp h'
      obtain rfl := Except.ok.inj (hname.symm.trans hname')
      obtain ⟨calib, hcalib, h⟩ := Except.bind_eq_ok.mp h
      obtain ⟨calib', hcalib', h'⟩ := Except.bind_eq_ok.mp h'
      obtain rfl := hreg.content henv henv' hcalib hcalib' rfl
      exact ih h h'

/-- What is made of the calibs that the butler gives. -/
theorem getButler_ok {α : Type} {refs : List (String × Nat × DatasetRef)} {v : α}
    {make : OrderedDict String (OrderedDict String S.Calib) → Except Exn α}
    (h : (do
      env.openButler (← butlerRepo env)
      let byType ← getAll env refs .empty
      make byType) = .ok v) :
    ∃ byType, getAll env refs .empty = .ok byType ∧ make byType = .ok v := by
  obtain ⟨repo, -, h⟩ := Except.bind_eq_ok.mp h
  obtain ⟨-, -, h⟩ := Except.bind_eq_ok.mp h
  exact Except.bind_eq_ok.mp h

/-- From the same datasets comes the same detector half. -/
theorem LoadedDetector.unique (hreg : Registries envs) {refs : List (String × Nat × DatasetRef)}
    {d d' : DetectorCalibs S} (h : LoadedDetector envs refs d) (h' : LoadedDetector envs refs d') :
    d = d' := by
  obtain ⟨env, henv, r, rfl, h⟩ := h
  obtain ⟨env', henv', r', hrefs, h'⟩ := h'
  obtain ⟨byType, hall, h⟩ := getButler_ok h
  obtain ⟨byType', hall', h'⟩ := getButler_ok h'
  rw [hrefs] at hall'
  obtain rfl := getAll_congr hreg henv henv' hall hall'
  exact Except.ok.inj (h.symm.trans h')

/-- From the same datasets, under the same detector half, comes the same filter half. -/
theorem LoadedFilter.unique (hreg : Registries envs) {refs : List (String × Nat × DatasetRef)}
    {physicalFilter : String} {v v' : FilterCalibs S}
    (h : LoadedFilter envs refs physicalFilter v)
    (h' : LoadedFilter envs refs physicalFilter v') : v = v' := by
  obtain ⟨env, henv, r, ids, d, rfl, rfl, h⟩ := h
  obtain ⟨env', henv', r', ids', d', hrefs, hfilter, h'⟩ := h'
  obtain ⟨byType, hall, h⟩ := getButler_ok h
  obtain ⟨byType', hall', h'⟩ := getButler_ok h'
  rw [hrefs] at hall'
  rw [hfilter] at h'
  obtain rfl := getAll_congr hreg henv henv' hall hall'
  exact Except.ok.inj (h.symm.trans h')

/-- A filter half says the filter that its flats are of. -/
theorem LoadedFilter.physicalFilter {refs : List (String × Nat × DatasetRef)}
    {physicalFilter : String} {v : FilterCalibs S} (h : LoadedFilter envs refs physicalFilter v) :
    v.physicalFilter = physicalFilter := by
  obtain ⟨env, -, r, ids, d, -, rfl, h⟩ := h
  obtain ⟨_, -, h⟩ := getButler_ok h
  obtain ⟨_, -, h⟩ := Except.bind_eq_ok.mp h
  rw [← Except.ok.inj h]

/-! ### The caches

The invariant is about identities and not about times.  A half that stands under an identity was
loaded from the datasets of that identity, whenever that was, and whatever the registry would find
now.
-/

/-- Each half stands under the identity of the datasets it was loaded from. -/
structure CalibsCached (envs : Env S → Prop) (g : Globals S) : Prop where
  detector : ∀ id d, g.detectorCalibCache = some (id, d) → ∃ env c ids r, envs env ∧
    butlerResolve env c = .ok (ids, r) ∧ ids.detector = id ∧ LoadedDetector envs r.detectorRefs d
  filtered : g.filterCalibCache.Forall fun id v => ∃ env c ids r, envs env ∧
    butlerResolve env c = .ok (ids, r) ∧ ids.filtered = id ∧
      LoadedFilter envs r.filterRefs r.physicalFilter v

/-- A process just started has no calibs. -/
theorem calibsCached_fresh : CalibsCached envs (Globals.fresh : Globals S) where
  detector := fun _ _ h => absurd h (by simp [Globals.fresh])
  filtered := OrderedDict.forall_empty _

/-- What is composed for a prepare: both halves are of the datasets that one resolution at
that moment gave, and are what loading them afresh gives. -/
structure Composed (envs : Env S → Prop) (env : Env S) (c : PrepareCommand)
    (calib : CalibSet S) : Prop where
  resolved : ∃ ids r, butlerResolve env c = .ok (ids, r) ∧
    LoadedDetector envs r.detectorRefs calib.detector ∧
    LoadedFilter envs r.filterRefs r.physicalFilter calib.filtered
  afresh : ∀ fresh, (butlerCalibBackend env).calibsFor c = .ok fresh → calib = fresh

/-- Two halves of one resolution are what loading afresh gives. -/
theorem Composed.mk' (hreg : Registries envs) (henv : envs env) {c : PrepareCommand}
    {ids : CalibIds} {r : FoundCalibs} {calib : CalibSet S}
    (hres : butlerResolve env c = .ok (ids, r))
    (hd : LoadedDetector envs r.detectorRefs calib.detector)
    (hv : LoadedFilter envs r.filterRefs r.physicalFilter calib.filtered) :
    Composed envs env c calib := by
  refine ⟨⟨ids, r, hres, hd, hv⟩, ?_⟩
  intro fresh hfresh
  unfold CalibBackend.calibsFor at hfresh
  obtain ⟨⟨ids', r'⟩, hres', hfresh⟩ := Except.bind_eq_ok.mp hfresh
  obtain ⟨rfl, rfl⟩ := Prod.mk.inj (Except.ok.inj (hres.symm.trans hres'))
  obtain ⟨d, hload, hfresh⟩ := Except.bind_eq_ok.mp hfresh
  obtain ⟨v, hload', hfresh⟩ := Except.bind_eq_ok.mp hfresh
  have hdetector := hd.unique hreg ⟨env, henv, r, rfl, hload⟩
  have hfiltered := hv.unique hreg ⟨env, henv, r, ids, d, rfl, rfl, hload'⟩
  rw [← Except.ok.inj hfresh, ← hdetector, ← hfiltered]

/-! ### One call of `_ensure_calib`

The call resolves first, so the identities are those of this moment; a half that is reused was
loaded from the datasets they name, and one that is not is loaded from them now.  Either way the
set that is composed is the one that loading afresh gives.  Where it raises, something outside
failed or there is nothing to be composed.
-/

section Ensure

variable {c : PrepareCommand} {ids : CalibIds} {r : FoundCalibs} {p : Process S}

/-- Nothing but the calib caches is written, and they are kept. -/
structure Recaches (envs : Env S → Prop) (p q : Process S) : Prop where
  cached : CalibsCached envs q.toGlobals
  store : q.calibStore = p.calibStore
  quiet : p.world.faults = [] → q.world.faults = []

theorem Recaches.trans {q t : Process S} (h : Recaches envs p q) (h' : Recaches envs q t) :
    Recaches envs p t := ⟨h'.cached, h'.store.trans h.store, fun hnone => h'.quiet (h.quiet hnone)⟩

theorem CalibsCached.world (h : CalibsCached envs p.toGlobals) {w : World S}
    (hw : p.world.faults = [] → w.faults = []) :
    Recaches envs p { p with world := w } := ⟨⟨h.detector, h.filtered⟩, rfl, hw⟩

theorem ensureDetectorCalibs_loaded (hreg : Registries envs) (henv : envs env)
    (hres : butlerResolve env c = .ok (ids, r)) (hp : CalibsCached envs p.toGlobals) :
    Ends (ensureDetectorCalibs (butlerCalibBackend env) ids r) p
      (fun d q => Recaches envs p q ∧ LoadedDetector envs r.detectorRefs d.1)
      (fun exc q => Recaches envs p q ∧ (p.world.faults = [] →
        (butlerCalibBackend env).loadDetector r = .error exc)) := by
  have hload : Ends (do
        let detector ← external ((butlerCalibBackend env).loadDetector r)
        modify fun p => { p with detectorCalibCache := some (ids.detector, detector) }
        pure (detector, false)) p
      (fun d q => Recaches envs p q ∧ LoadedDetector envs r.detectorRefs d.1)
      (fun exc q => Recaches envs p q ∧ (p.world.faults = [] →
        (butlerCalibBackend env).loadDetector r = .error exc)) := by
    rw [ends_bind]
    refine ends_external_quiet ?_ fun _ w hw hraised => ⟨hp.world hw, hraised⟩
    intro d w hload hw
    rw [ends_bind, ends_modify, ends_pure]
    have hd : LoadedDetector envs r.detectorRefs d := ⟨env, henv, r, rfl, hload⟩
    refine ⟨⟨⟨?_, hp.filtered⟩, rfl, hw⟩, hd⟩
    intro id d' heq
    obtain ⟨rfl, rfl⟩ := Prod.mk.inj (Option.some.inj heq)
    exact ⟨env, c, ids, r, henv, hres, rfl, hd⟩
  unfold ensureDetectorCalibs
  rw [ends_bind, ends_get]
  split
  · rename_i id d hcache
    by_cases hid : id = ids.detector
    · rw [if_pos hid, ends_pure]
      obtain ⟨env', c', ids', r', henv', hres', hids', hd⟩ := hp.detector id d hcache
      -- the identity in the slot is that of the datasets just resolved
      have hrefs := butlerResolve_detector (hreg.agree henv henv') hres hres'
        (hid.symm.trans hids'.symm)
      refine ⟨hp.world fun h => h, ?_⟩
      rw [hrefs]
      exact hd
    · rw [if_neg hid]
      exact hload
  · exact hload

theorem ensureFilterCalibs_loaded (hreg : Registries envs) (henv : envs env)
    (hres : butlerResolve env c = .ok (ids, r)) (hp : CalibsCached envs p.toGlobals)
    (detector : DetectorCalibs S) :
    Ends (ensureFilterCalibs (butlerCalibBackend env) ids r detector) p
      (fun v q => Recaches envs p q ∧ LoadedFilter envs r.filterRefs r.physicalFilter v.1)
      (fun exc q => Recaches envs p q ∧ (p.world.faults = [] →
        (butlerCalibBackend env).loadFilter r ids detector = .error exc)) := by
  unfold ensureFilterCalibs
  rw [ends_bind, ends_get]
  split
  · rename_i v hget
    rw [ends_bind, ends_modify, ends_pure]
    obtain ⟨env', c', ids', r', henv', hres', hids', hv⟩ := hp.filtered.get? hget
    obtain ⟨hrefs, hfilter⟩ :=
      butlerResolve_filtered (hreg.agree henv henv') hres hres' hids'.symm
    refine ⟨⟨⟨hp.detector, hp.filtered.moveToEnd _⟩, rfl, fun h => h⟩, ?_⟩
    rw [hrefs, hfilter]
    exact hv
  · rw [ends_bind]
    refine ends_external_quiet ?_ fun _ w hw hraised => ⟨hp.world hw, hraised⟩
    intro v w hload hw
    rw [ends_bind, ends_modify, ends_pure]
    have hv : LoadedFilter envs r.filterRefs r.physicalFilter v :=
      ⟨env, henv, r, ids, detector, rfl, rfl, hload⟩
    refine ⟨⟨⟨hp.detector, ?_⟩, rfl, hw⟩, hv⟩
    exact (hp.filtered.set ⟨env, c, ids, r, henv, hres, rfl, hv⟩).evict _

/-- Why nothing can be composed for a prepare: it cannot be resolved at that moment, or one of
the halves that it is resolved to cannot be loaded. -/
inductive Uncomposed (env : Env S) (c : PrepareCommand) (exc : Exn) : Prop
  | resolve : butlerResolve env c = .error exc → Uncomposed env c exc
  | detector (ids : CalibIds) (r : FoundCalibs) : butlerResolve env c = .ok (ids, r) →
      (butlerCalibBackend env).loadDetector r = .error exc → Uncomposed env c exc
  | filtered (ids : CalibIds) (r : FoundCalibs) (detector : DetectorCalibs S) :
      butlerResolve env c = .ok (ids, r) →
      (butlerCalibBackend env).loadFilter r ids detector = .error exc → Uncomposed env c exc

/-- Then resolving and loading afresh gives nothing either. -/
theorem Uncomposed.calibsFor {exc : Exn} {fresh : CalibSet S} (h : Uncomposed env c exc) :
    (butlerCalibBackend env).calibsFor c ≠ .ok fresh := by
  intro hfresh
  unfold CalibBackend.calibsFor at hfresh
  obtain ⟨⟨ids', r'⟩, hres', hfresh⟩ := Except.bind_eq_ok.mp hfresh
  obtain ⟨d, hload, hfresh⟩ := Except.bind_eq_ok.mp hfresh
  obtain ⟨v, hload', -⟩ := Except.bind_eq_ok.mp hfresh
  cases h with
  | resolve hres => exact absurd (hres.symm.trans hres') nofun
  | detector ids r hres hraised =>
      obtain ⟨rfl, rfl⟩ := Prod.mk.inj (Except.ok.inj (hres.symm.trans hres'))
      exact absurd (hraised.symm.trans hload) nofun
  | filtered ids r detector hres hraised =>
      obtain ⟨rfl, rfl⟩ := Prod.mk.inj (Except.ok.inj (hres.symm.trans hres'))
      -- The filter half of a repo does not read the detector half.
      exact absurd (hraised.symm.trans hload') nofun

/-- **What `_ensure_calib` composes is what resolving and loading afresh gives**, and it
keeps the caches whether it returns or raises.  Where nothing goes wrong outside it raises
what the resolution or a load of that moment does. -/
theorem ensureCalib_composed (hreg : Registries envs) (henv : envs env) (c : PrepareCommand)
    (hp : CalibsCached envs p.toGlobals) :
    Ends (ensureCalib env c) p
      (fun calib q => Recaches envs p q ∧ Composed envs env c calib.1 ∧
        calib.1.filtered.physicalFilter = c.physicalFilter)
      (fun exc q => Recaches envs p q ∧ (p.world.faults = [] → Uncomposed env c exc)) := by
  unfold ensureCalib
  rw [hreg.butler henv]
  dsimp only
  unfold ensureCalibFrom
  rw [ends_bind]
  refine ends_external_quiet ?_ fun _ w hw hraised => ⟨hp.world hw, fun h => .resolve (hraised h)⟩
  intro found w hres hw
  obtain ⟨ids, r⟩ := found
  have hw := hp.world hw
  rw [ends_bind]
  refine (ensureDetectorCalibs_loaded (p := { p with world := w }) hreg henv hres hw.cached).mono
    ?_ (fun _ _ h => ⟨hw.trans h.1, fun hnone => .detector ids r hres (h.2 (hw.quiet hnone))⟩)
  intro d q hd
  have hq := hw.trans hd.1
  rw [ends_bind]
  refine (ensureFilterCalibs_loaded hreg henv hres hd.1.cached d.1).mono ?_
    (fun _ _ h => ⟨hq.trans h.1, fun hnone => .filtered ids r d.1 hres (h.2 (hq.quiet hnone))⟩)
  intro v t hv
  obtain ⟨_, _, _, _, _, hfilter⟩ := butlerResolve_eq_ok hres
  exact ⟨hq.trans hv.1, .mk' hreg henv hres hd.2 hv.2,
    hv.2.physicalFilter.trans hfilter⟩

end Ensure

/-! ### What keeps away from the calibs

Everything else a command does leaves the calib caches and the live calibs alone.  That is shown
along the code, as for code that only reads.
-/

/-- The calib caches and the live calibs are as they were. -/
def SameCalibs (p q : Process S) : Prop :=
  (q.detectorCalibCache, q.filterCalibCache, q.calibStore) =
    (p.detectorCalibCache, p.filterCalibCache, p.calibStore)

/-- Code that leaves the calibs alone. -/
def SparesCalibs {α : Type} (m : Code S α) : Prop := Within SameCalibs m

namespace SparesCalibs

variable {α β : Type}

theorem bind {m : Code S α} {f : α → Code S β} (hm : SparesCalibs m)
    (hf : ∀ a, SparesCalibs (f a)) : SparesCalibs (m >>= f) :=
  Within.bind (R := SameCalibs) (fun _ _ _ h h' => h'.trans h) hm hf

theorem pure (a : α) : SparesCalibs (Pure.pure a : Code S α) :=
  Within.pure (R := SameCalibs) (fun _ => rfl) a

theorem get : SparesCalibs (MonadState.get : Code S (Process S)) :=
  Within.get (R := SameCalibs) fun _ => rfl

theorem external (x : Except Exn α) : SparesCalibs (DonutServer.external x : Code S α) :=
  fun _ => ends_external (fun _ _ _ => rfl) (fun _ _ => rfl)

theorem evaluate (x : Except Exn α) : SparesCalibs (DonutServer.evaluate x : Code S α) :=
  Within.ofExcept (R := SameCalibs) (fun _ => rfl) x

end SparesCalibs

theorem ReadsOnly.sparesCalibs {α : Type} {m : Code S α} (h : ReadsOnly m) : SparesCalibs m := by
  refine Within.mono (R := Reads) h ?_
  intro p q hc
  obtain ⟨_, _, rfl⟩ := hc
  rfl

theorem ensureEachShard_spares (ids : List Nat) : ∀ (shards : Children S) (loaded : Nat),
    SparesCalibs (ensureEachShard env ids shards loaded) := by
  induction ids with
  | nil =>
      intro shards loaded
      exact .pure _
  | cons id rest ih =>
      intro shards loaded
      unfold ensureEachShard
      refine .bind .get fun p => ?_
      split
      · exact .bind (.external _) fun children =>
          .bind (Within.write fun _ => rfl) fun _ => ih _ _
      · exact .bind (Within.write fun _ => rfl) fun _ => ih _ _

theorem ensureStore_spares (store : StoreId) (ra dec : ℚ) :
    SparesCalibs (ensureStore env store ra dec) := by
  have hrefill : ∀ wanted, SparesCalibs (refillStore env store wanted) := by
    intro wanted
    unfold refillStore ensureShards
    exact .bind (.bind (ensureEachShard_spares _ _ _) fun _ =>
      .bind (Within.write fun _ => rfl) fun _ => .pure _) fun _ =>
        .bind (Within.write fun _ => rfl) fun _ => .pure _
  unfold ensureStore
  refine .bind (.external _) fun ids => .bind .get fun before => ?_
  dsimp only
  split
  · exact .bind (.pure _) fun _ => .bind .get fun _ => .pure _
  · exact .bind (hrefill _) fun _ => .bind .get fun _ => .pure _

theorem buildEntry_spares (key : PrepareKey) (c : PrepareCommand) :
    SparesCalibs (buildEntry env key c) := by
  unfold buildEntry newStore
  exact .bind (.external _) fun _ => .bind (.external _) fun _ => .bind (.evaluate _) fun _ =>
    .bind (.external _) fun _ =>
      .bind (.bind .get fun _ => .bind (Within.write fun _ => rfl) fun _ => .pure _) fun _ =>
        .bind (ensureStore_spares _ _ _) fun _ => .pure _

theorem obtainEntry_spares (key : PrepareKey) (c : PrepareCommand) :
    SparesCalibs (obtainEntry env key c) := by
  unfold obtainEntry
  refine .bind .get fun p => ?_
  split
  · exact .bind (buildEntry_spares key c) fun _ =>
      .bind (Within.write fun _ => rfl) fun _ => .pure _
  · exact .bind (Within.write fun _ => rfl) fun _ =>
      .bind (ensureStore_spares _ _ _) fun _ => .pure _

/-- All that a prepare does before it activates its entry. -/
theorem lookUpEntry_spares (c : PrepareCommand) : SparesCalibs (lookUpEntry env c) := by
  have huniverse : SparesCalibs (ensureUniverse env) := by
    unfold ensureUniverse
    refine .bind .get fun p => ?_
    split
    · exact .pure _
    · exact .bind (.external _) fun _ => Within.write fun _ => rfl
  unfold lookUpEntry
  exact .bind huniverse fun _ => .bind (.external _) fun key =>
    .bind (obtainEntry_spares key c) fun _ => .pure _

/-! ### Commands

A command sets the live calibs at most once, in its activation, and what comes after that spares
them.  So whatever becomes of the command, the live calibs are what they were or were composed in
it, for the prepare it asks for.
-/

/-- The prepare whose calibs a command sets up, if it gets that far. -/
def Asks (command : Command) (g : Globals S) (c : PrepareCommand) : Prop :=
  match command with
  | .prepare c' => c = c'
  | .push _ _ _ key => ∃ k, key = some k ∧ g.prepareCommands.get? k = some c
  | .ingest _ _ _ key => ∃ k, key = some k ∧ g.prepareCommands.get? k = some c
  | _ => False

/-- The caches are kept, and the live calibs are what they were or were composed for a
prepare that was asked for. -/
structure ServesCalibs (envs : Env S → Prop) (env : Env S) (asks : PrepareCommand → Prop)
    (g g' : Globals S) : Prop where
  cached : CalibsCached envs g'
  store : g'.calibStore = g.calibStore ∨ ∃ c calib, asks c ∧
    g'.calibStore = some (c.physicalFilter, calib) ∧ Composed envs env c calib

/-- The live calibs were composed for the prepare that was asked for. -/
def SetsCalibs (envs : Env S → Prop) (env : Env S) (asks : PrepareCommand → Prop)
    (g' : Globals S) : Prop :=
  ∀ c, asks c → ∃ calib, g'.calibStore = some (c.physicalFilter, calib) ∧
    Composed envs env c calib

theorem CalibsCached.same {p q : Process S} (h : CalibsCached envs p.toGlobals)
    (hsame : SameCalibs p q) : CalibsCached envs q.toGlobals := by
  obtain ⟨hdetector, hrest⟩ := Prod.mk.inj hsame
  obtain ⟨hfiltered, -⟩ := Prod.mk.inj hrest
  refine ⟨?_, ?_⟩
  · rw [hdetector]
    exact h.detector
  · rw [hfiltered]
    exact h.filtered

theorem SameCalibs.store {p q : Process S} (h : SameCalibs p q) : q.calibStore = p.calibStore :=
  (Prod.mk.inj (Prod.mk.inj h).2).2

section Serve

variable {asks : PrepareCommand → Prop} {p q t : Process S}

/-- Code that sets the live calibs for what was asked for if it returns, and if it raises may
have left them. -/
def HandlesCalibs {α : Type} (envs : Env S → Prop) (env : Env S) (asks : PrepareCommand → Prop)
    (p : Process S) (m : Code S α) : Prop :=
  Ends m p
    (fun _ q => ServesCalibs envs env asks p.toGlobals q.toGlobals ∧
      SetsCalibs envs env asks q.toGlobals)
    (fun _ q => ServesCalibs envs env asks p.toGlobals q.toGlobals)

theorem ServesCalibs.before (hsame : SameCalibs p q)
    (h : ServesCalibs envs env asks q.toGlobals t.toGlobals) :
    ServesCalibs envs env asks p.toGlobals t.toGlobals := by
  refine ⟨h.cached, ?_⟩
  rw [← hsame.store]
  exact h.store

theorem ServesCalibs.after (h : ServesCalibs envs env asks p.toGlobals q.toGlobals)
    (hsame : SameCalibs q t) : ServesCalibs envs env asks p.toGlobals t.toGlobals := by
  refine ⟨h.cached.same hsame, ?_⟩
  rw [hsame.store]
  exact h.store

theorem SetsCalibs.after (h : SetsCalibs envs env asks q.toGlobals) (hsame : SameCalibs q t) :
    SetsCalibs envs env asks t.toGlobals := by
  unfold SetsCalibs
  rw [hsame.store]
  exact h

theorem CalibsCached.serves (h : CalibsCached envs p.toGlobals) (hsame : SameCalibs p q) :
    ServesCalibs envs env asks p.toGlobals q.toGlobals := ⟨h.same hsame, Or.inl hsame.store⟩

/-- Where nothing is asked for, nothing is to be set. -/
theorem SparesCalibs.handles {α : Type} {m : Code S α} (hm : SparesCalibs m)
    (hp : CalibsCached envs p.toGlobals) (hnone : ∀ c, ¬ asks c) :
    HandlesCalibs envs env asks p m :=
  (hm p).mono (fun _ _ h => ⟨hp.serves h, fun c hc => absurd hc (hnone c)⟩)
    (fun _ _ h => hp.serves h)

/-- Activating sets the live calibs to what was composed, or leaves them. -/
theorem activateEntry_serves (hreg : Registries envs) (henv : envs env)
    (entry : PreparedEntry S) {c : PrepareCommand} (hasks : ∀ c', asks c' ↔ c' = c)
    (hp : CalibsCached envs p.toGlobals) :
    HandlesCalibs envs env asks p (activateEntry env entry c) := by
  unfold HandlesCalibs activateEntry
  rw [ends_bind]
  refine (ensureCalib_composed hreg henv c hp).mono ?_
    (fun _ _ h => ⟨h.1.cached, Or.inl h.1.store⟩)
  intro calib q hends
  obtain ⟨hq, hcomposed, hfilter⟩ := hends
  obtain ⟨calib, timing⟩ := calib
  rw [ends_bind, ends_modify, ends_pure]
  have hstore : some (calib.filtered.physicalFilter, calib) = some (c.physicalFilter, calib) := by
    rw [hfilter]
  refine ⟨⟨⟨hq.cached.detector, hq.cached.filtered⟩, Or.inr ⟨c, calib, (hasks c).mpr rfl, hstore,
    hcomposed⟩⟩, fun c' hc' => ?_⟩
  rw [(hasks c').mp hc']
  exact ⟨calib, hstore, hcomposed⟩

/-- Code that spares the calibs may come first. -/
theorem SparesCalibs.then_serves {α β : Type} {m : Code S α} {f : α → Code S β}
    (hm : SparesCalibs m) (hp : CalibsCached envs p.toGlobals)
    (hf : ∀ a q, SameCalibs p q → CalibsCached envs q.toGlobals →
      HandlesCalibs envs env asks q (f a)) : HandlesCalibs envs env asks p (m >>= f) := by
  unfold HandlesCalibs
  rw [ends_bind]
  refine (hm p).mono ?_ (fun _ _ h => hp.serves h)
  intro a q hsame
  refine (hf a q hsame (hp.same hsame)).mono ?_ ?_
  · exact fun _ _ h => ⟨h.1.before hsame, h.2⟩
  · exact fun _ _ h => h.before hsame

/-- And it may come last. -/
theorem SparesCalibs.serves_then {α β : Type} {m : Code S α} {f : α → Code S β}
    (hm : HandlesCalibs envs env asks p m) (hf : ∀ a, SparesCalibs (f a)) :
    HandlesCalibs envs env asks p (m >>= f) := by
  unfold HandlesCalibs
  refine Ends.bind hm ?_
  intro a q hq
  refine (hf a q).mono ?_ ?_
  · exact fun _ _ h => ⟨hq.1.after h, hq.2.after h⟩
  · exact fun _ _ h => hq.1.after h

theorem activateFor_serves (hreg : Registries envs) (henv : envs env) (key : Option PrepareKey)
    (hp : CalibsCached envs p.toGlobals) :
    HandlesCalibs envs env (fun c => ∃ k, key = some k ∧ p.prepareCommands.get? k = some c) p
      (activateFor env key) := by
  cases key with
  | none =>
      refine SparesCalibs.handles (.pure _) hp fun c hc => ?_
      obtain ⟨k, hk, -⟩ := hc
      exact absurd hk (by simp)
  | some k =>
      refine SparesCalibs.serves_then ?_ (fun _ => .pure _)
      unfold ensurePreparedForPush HandlesCalibs
      rw [ends_bind, ends_get]
      split
      · exact hp.serves rfl
      · rename_i c hget
        have hasked : ∀ c', (∃ k', some k = some k' ∧ p.prepareCommands.get? k' = some c') ↔
            c' = c := by
          intro c'
          constructor
          · rintro ⟨k', hk, hget'⟩
            obtain rfl := Option.some.inj hk
            exact Option.some.inj (hget'.symm.trans hget)
          · rintro rfl
            exact ⟨k, rfl, hget⟩
        split
        · rename_i entry hcached
          refine SparesCalibs.then_serves (Within.write fun _ => rfl) hp fun _ q _ hq => ?_
          exact SparesCalibs.serves_then (activateEntry_serves hreg henv entry hasked hq)
            (fun _ => .pure _)
        · refine SparesCalibs.then_serves (buildEntry_spares k c) hp fun built q _ hq => ?_
          refine SparesCalibs.then_serves (Within.write fun _ => rfl) hq fun _ t _ ht => ?_
          exact SparesCalibs.serves_then (activateEntry_serves hreg henv built.1 hasked ht)
            (fun _ => .pure _)

theorem body_serves (hreg : Registries envs) (henv : envs env) (command : Command)
    (hp : CalibsCached envs p.toGlobals) :
    HandlesCalibs envs env (Asks command p.toGlobals) p (body env command) := by
  cases command with
  | prepare c =>
      have hprepared : HandlesCalibs envs env (Asks (.prepare c) p.toGlobals) p
          (ensurePrepared env c) := by
        unfold ensurePrepared
        refine SparesCalibs.then_serves (lookUpEntry_spares c) hp fun found q _ hq => ?_
        exact SparesCalibs.serves_then
          (activateEntry_serves hreg henv found.2.1 (fun _ => Iff.rfl) hq) (fun _ => .pure _)
      exact SparesCalibs.serves_then hprepared fun _ => .bind .get fun _ => .pure _
  | resolve directory =>
      exact SparesCalibs.handles (.bind .get fun q => .bind (.external _) fun _ => .pure _) hp
        fun _ h => h
  | push jobId layout numWorkers key =>
      exact SparesCalibs.serves_then (activateFor_serves hreg henv key hp) fun _ =>
        .bind runPush_readsOnly.sparesCalibs fun _ => .pure _
  | ingest jobId directory numWorkers key =>
      exact SparesCalibs.serves_then (activateFor_serves hreg henv key hp) fun _ =>
        .bind runIngest_readsOnly.sparesCalibs fun _ => .pure _
  | shutdown => exact SparesCalibs.handles (.pure _) hp fun _ h => h
  | other cmd => exact SparesCalibs.handles (.pure _) hp fun _ h => h

end Serve

/-! ### Histories

A history is a list of commands, each with what is outside at its time: the registry, the files and
the faults.  The invariant holds after any of them, and the theorem is about one more call, made
then.
-/

/-- A command, with what is outside the process when it is handled. -/
structure Moment (S : Stack) where
  env : Env S
  world : World S
  command : Command

/-- What handling it leaves. -/
def Moment.serve (g : Globals S) (m : Moment S) : Globals S :=
  ((coordinatorProgram m.env).run m.world m.command g).2

/-- What a history leaves of a process just started. -/
def served (history : List (Moment S)) : Globals S := history.foldl Moment.serve .fresh

/-- **The rule for handling a command.**  What its body leaves in the globals, handling it
leaves, the table that waits apart. -/
theorem Moment.serve_ends {m : Moment S} {g : Globals S} {P : Globals S → Prop}
    (hdefer : ∀ g deferred, P g → P { g with deferred := deferred })
    (h : Ends (body m.env m.command) ⟨g, m.world⟩ (fun _ q => P q.toGlobals)
      (fun _ q => P q.toGlobals)) : P (m.serve g) := by
  have hattempt : P (attempt m.env m.command ⟨g, m.world⟩).2.toGlobals := by
    refine attempt_of_ends (P := fun _ q => P q.toGlobals) h ?_ ?_ ?_
    · exact fun _ _ _ h => h
    · exact fun _ _ _ _ h => h
    · exact fun _ _ h => h
  unfold serve coordinatorProgram settle
  dsimp only
  split
  · exact hdefer _ _ hattempt
  · exact hattempt

/-- What it is answered with. -/
def Moment.answer (g : Globals S) (m : Moment S) : Msg :=
  ((coordinatorProgram m.env).run m.world m.command g).1

/-- A command is answered with a failure, or has the live calibs composed for its prepare. -/
theorem Moment.serve_calibs (hreg : Registries envs) {m : Moment S} (henv : envs m.env)
    {g : Globals S} (hg : CalibsCached envs g) :
    ServesCalibs envs m.env (Asks m.command g) g (m.serve g) ∧
      ((∃ exc, m.answer g = failure m.command exc) ∨
        SetsCalibs envs m.env (Asks m.command g) (m.serve g)) := by
  have hattempt : ServesCalibs envs m.env (Asks m.command g) g
        (attempt m.env m.command ⟨g, m.world⟩).2.toGlobals ∧
      ((∃ exc, (attempt m.env m.command ⟨g, m.world⟩).1 = failure m.command exc) ∨
        SetsCalibs envs m.env (Asks m.command g)
          (attempt m.env m.command ⟨g, m.world⟩).2.toGlobals) := by
    refine attempt_of_ends (P := fun msg q =>
      ServesCalibs envs m.env (Asks m.command g) g q.toGlobals ∧
        ((∃ exc, msg = failure m.command exc) ∨
          SetsCalibs envs m.env (Asks m.command g) q.toGlobals))
      (body_serves hreg henv m.command (p := ⟨g, m.world⟩) hg) ?_ ?_ ?_
    · exact fun _ _ _ h => ⟨⟨⟨h.1.cached.detector, h.1.cached.filtered⟩, h.1.store⟩, Or.inr h.2⟩
    · exact fun _ exc _ _ h =>
        ⟨⟨⟨h.1.cached.detector, h.1.cached.filtered⟩, h.1.store⟩, Or.inl ⟨exc, rfl⟩⟩
    · exact fun exc _ h => ⟨h, Or.inl ⟨exc, rfl⟩⟩
  unfold answer serve coordinatorProgram settle
  dsimp only
  split
  · exact ⟨⟨⟨hattempt.1.cached.detector, hattempt.1.cached.filtered⟩, hattempt.1.store⟩,
      hattempt.2⟩
  · exact hattempt

/-- The caches are good after any history. -/
theorem served_cached (hreg : Registries envs) {history : List (Moment S)}
    (henvs : ∀ m ∈ history, envs m.env) : CalibsCached envs (served history) := by
  induction history using List.reverseRecOn with
  | nil => exact calibsCached_fresh
  | append_singleton rest m ih =>
      have hrest := ih fun m' hm' => henvs m' (List.mem_append_left _ hm')
      unfold served at hrest ⊢
      rw [List.foldl_append]
      exact (Moment.serve_calibs hreg (henvs m (by simp)) hrest).1.cached

/-- **The calib caches are transparent under recertification.**  After any history, whatever
the registry answers by now, `_ensure_calib` composes what resolving and loading afresh
would give, wherever in the handling of a command it is called.  Where nothing goes wrong
outside, it does so whenever resolving and loading afresh gives anything, and raises only
what they do.  What a command makes the live calibs is what was composed for its own prepare,
and a command that is not answered with a failure does make them so. -/
theorem calibs_transparent (hreg : Registries envs) {history : List (Moment S)}
    (henvs : ∀ m ∈ history, envs m.env) {m : Moment S} (henv : envs m.env) :
    (∀ (c : PrepareCommand) (p : Process S), SameCalibs ⟨served history, m.world⟩ p →
      Ends (ensureCalib m.env c) p (fun calib _ => Composed envs m.env c calib.1)
        (fun exc _ => p.world.faults = [] → Uncomposed m.env c exc) ∧
      (p.world.faults = [] → ∀ fresh, (butlerCalibBackend m.env).calibsFor c = .ok fresh →
        ∃ timing q, (ensureCalib m.env c).outcome p = (.ok (fresh, timing), q))) ∧
    ((m.serve (served history)).calibStore = (served history).calibStore ∨
      ∃ c calib, Asks m.command (served history) c ∧
        (m.serve (served history)).calibStore = some (c.physicalFilter, calib) ∧
        Composed envs m.env c calib) ∧
    ∀ c, Asks m.command (served history) c →
      (∃ exc, m.answer (served history) = failure m.command exc) ∨
      ∃ calib, (m.serve (served history)).calibStore = some (c.physicalFilter, calib) ∧
        Composed envs m.env c calib := by
  have hcached := served_cached hreg henvs
  obtain ⟨hserves, hsets⟩ := Moment.serve_calibs hreg henv hcached
  refine ⟨fun c p hsame => ?_, hserves.store, fun c hc => hsets.imp_right fun h => h c hc⟩
  have hp : CalibsCached envs p.toGlobals :=
    CalibsCached.same (p := ⟨served history, m.world⟩) hcached hsame
  have hends := ensureCalib_composed hreg henv c hp
  refine ⟨hends.mono (fun _ _ h => h.2.1) (fun _ _ h => h.2), fun hquiet fresh hfresh => ?_⟩
  unfold Ends at hends
  rcases hrun : (ensureCalib m.env c).outcome p with ⟨exc | ⟨calib, timing⟩, q⟩
  · rw [hrun] at hends
    exact absurd hfresh (hends.2 hquiet).calibsFor
  · rw [hrun] at hends
    obtain rfl : calib = fresh := hends.2.1.afresh fresh hfresh
    exact ⟨timing, q, rfl⟩

/-! ### A bench repo

One filter, one dataset of each type and detector, and two certifications that differ in the flats
alone.
-/

/-- The dataset types of the repo, each with a number of its own and the filter it carries. -/
def repoTypes : List (String × Nat × Option String) :=
  [("ptc", 0, none), ("linearizer", 1, none), ("crosstalk", 2, none), ("flat", 3, some "r_57"),
    ("intrinsicZernikes", 4, some "r_57")]

/-- A repo of one filter, whose flats are those of a certification. -/
def repoEnv (certification : Bool) : Env benchStack :=
  { benchEnv with
    environ := fun name =>
      if name = "DONUT_SERVER_CALIB_BACKEND" then some "butler"
      else if name = "DONUT_SERVER_BUTLER_REPO" then some "/repo"
      else if name = "DONUT_SERVER_BUTLER_COLLECTIONS" then some "c"
      else benchEnv.environ name
    findDataset := fun datasetType dataId _ _ =>
      .ok ((repoTypes.find? fun x => x.1 = datasetType ∧ x.2.2 = dataId.physicalFilter).map fun x =>
        ⟨100 * dataId.detector + 10 * x.2.1 + (if certification ∧ x.2.1 = 3 then 1 else 0),
          datasetType, dataId⟩)
    getDataset := fun ref => .ok (toString ref.id) }

/-- What the repo finds. -/
theorem repoEnv_found {certification : Bool} {datasetType : String} {dataId : DataId}
    {collections : List String} {timespan : String} {ref : DatasetRef}
    (h : (repoEnv certification).findDataset datasetType dataId collections timespan =
      .ok (some ref)) :
    ref.datasetType = datasetType ∧ ref.dataId = dataId ∧ ∃ x ∈ repoTypes, x.1 = datasetType ∧
      x.2.2 = dataId.physicalFilter ∧
        ∃ digit ≤ 1, ref.id = 100 * dataId.detector + 10 * x.2.1 + digit := by
  obtain ⟨x, hx, rfl⟩ := Option.map_eq_some_iff.mp (Except.ok.inj h)
  have hmatch := List.find?_some hx
  rw [decide_eq_true_eq] at hmatch
  refine ⟨rfl, rfl, x, List.mem_of_find?_eq_some hx, hmatch.1, hmatch.2, _, ?_, rfl⟩
  split
  · exact Nat.le_refl _
  · exact Nat.zero_le _

theorem repo_registries : Registries fun env => ∃ certification, env = repoEnv certification where
  butler := by
    intro env hc
    obtain ⟨certification, rfl⟩ := hc
    rfl
  agree := by
    intro env env' hc hex
    obtain ⟨certification, rfl⟩ := hc
    obtain ⟨certification', rfl⟩ := hex
    refine ⟨?_, ?_, ?_⟩
    · intro datasetType dataId collections timespan ref h
      exact ⟨(repoEnv_found h).1, (repoEnv_found h).2.1⟩
    · intro datasetType dataId collections timespan ref h
      exact ⟨(repoEnv_found h).1, (repoEnv_found h).2.1⟩
    · intro datasetType dataId collections timespan ref datasetType' dataId' collections' timespan'
        ref' h h' hid
      obtain ⟨htype, hdata, x, hx, hxtype, hxfilter, digit, hdigit, hxid⟩ := repoEnv_found h
      obtain ⟨htype', hdata', x', hx', hxtype', hxfilter', digit', hdigit', hxid'⟩ :=
        repoEnv_found h'
      have hnumber : ∀ y ∈ repoTypes, y.2.1 ≤ 4 := by decide
      have hinj : ∀ y ∈ repoTypes, ∀ y' ∈ repoTypes, y.2.1 = y'.2.1 → y = y' := by decide
      have hle := hnumber x hx
      have hle' := hnumber x' hx'
      obtain rfl : x = x' := hinj x hx x' hx' (by omega)
      have hdetector : dataId.detector = dataId'.detector := by omega
      have hsame : dataId = dataId' := by
        cases dataId
        cases dataId'
        exact (DataId.mk.injEq ..).mpr ⟨hdetector, hxfilter.symm.trans hxfilter'⟩
      cases ref
      cases ref'
      exact (DatasetRef.mk.injEq ..).mpr ⟨hid, htype.trans (hxtype.symm.trans (hxtype'.trans
        htype'.symm)), hdata.trans (hsame.trans hdata'.symm)⟩
  content := by
    intro env env' ref ref' calib calib' hc hex h h' hid
    obtain ⟨_, rfl⟩ := hc
    obtain ⟨_, rfl⟩ := hex
    rw [← Except.ok.inj h, ← Except.ok.inj h', hid]

/-- A prepare while one certification or the other holds. -/
def repoMoment (certification : Bool) : Moment benchStack :=
  ⟨repoEnv certification, benchWorld, .prepare (benchPrepare "r_57")⟩

/-- What a call of `_ensure_calib` was given and took over: whether each half was reused, the
detector half's calib of a type that stays, and the flat. -/
def calibSummary (result : Except Exn (CalibSet benchStack × CalibTiming)) :
    Option (Bool × Bool × Option String × Option String) :=
  result.toOption.map fun r => (r.2.detectorReused, r.2.filterReused,
    r.1.detector.ptcByName.get? "R00_SW0", r.1.filtered.flatByName.get? "R00_SW0")

/-- A prepare that was answered with what it reports. -/
def Msg.isPrepared : Msg → Bool
  | .prepared .. => true
  | _ => false

/-- A repo that can be read gives calibs. -/
theorem repoEnv_fresh (certification : Bool) : ∃ fresh,
    (butlerCalibBackend (repoEnv certification)).calibsFor (benchPrepare "r_57") = .ok fresh := by
  have hrun : ((butlerCalibBackend (repoEnv certification)).calibsFor
      (benchPrepare "r_57")).toOption.isSome = true := by
    cases certification <;> decide +kernel
  rcases hfresh : (butlerCalibBackend (repoEnv certification)).calibsFor (benchPrepare "r_57") with
    exc | fresh
  · rw [hfresh] at hrun
    exact absurd hrun (by simp [Except.toOption])
  · exact ⟨fresh, rfl⟩

/-- The flats are certified anew between two prepares of one key.  As long as they are not,
both halves are reused; then the detector half is, and the filter half is that of the new
flats, and it is what the second prepare makes live. -/
theorem calibs_transparent_recertified :
    (∃ calib timing q, (ensureCalib (repoEnv false) (benchPrepare "r_57")).outcome
        ⟨served [repoMoment false], benchWorld⟩ = (.ok (calib, timing), q) ∧
      calibSummary (.ok (calib, timing)) = some (true, true, some "19100", some "19130") ∧
      (butlerCalibBackend (repoEnv false)).calibsFor (benchPrepare "r_57") = .ok calib) ∧
    (∃ calib timing q, (ensureCalib (repoEnv true) (benchPrepare "r_57")).outcome
        ⟨served [repoMoment false], benchWorld⟩ = (.ok (calib, timing), q) ∧
      calibSummary (.ok (calib, timing)) = some (true, false, some "19100", some "19131") ∧
      (butlerCalibBackend (repoEnv true)).calibsFor (benchPrepare "r_57") = .ok calib ∧
      ((repoMoment true).serve (served [repoMoment false])).calibStore = some ("r_57", calib)) := by
  have hhistory : ∀ m ∈ [repoMoment false], ∃ certification, m.env = repoEnv certification := by
    intro m hm
    obtain rfl := List.mem_singleton.mp hm
    exact ⟨false, rfl⟩
  have hcall : ∀ certification, ∃ calib timing q,
      (ensureCalib (repoEnv certification) (benchPrepare "r_57")).outcome
        ⟨served [repoMoment false], benchWorld⟩ = (.ok (calib, timing), q) ∧
      (butlerCalibBackend (repoEnv certification)).calibsFor (benchPrepare "r_57") = .ok calib := by
    intro certification
    obtain ⟨fresh, hfresh⟩ := repoEnv_fresh certification
    obtain ⟨timing, q, hrun⟩ := ((calibs_transparent repo_registries hhistory
      (m := repoMoment certification) ⟨certification, rfl⟩).1 (benchPrepare "r_57")
        ⟨served [repoMoment false], benchWorld⟩ rfl).2 rfl fresh hfresh
    exact ⟨fresh, timing, q, hrun, hfresh⟩
  refine ⟨?_, ?_⟩
  · obtain ⟨calib, timing, q, hrun, hfresh⟩ := hcall false
    have hsummary : calibSummary ((ensureCalib (repoEnv false) (benchPrepare "r_57")).outcome
        ⟨served [repoMoment false], benchWorld⟩).1 =
          some (true, true, some "19100", some "19130") := by decide +kernel
    rw [hrun] at hsummary
    exact ⟨calib, timing, q, hrun, hsummary, hfresh⟩
  · obtain ⟨calib, timing, q, hrun, hfresh⟩ := hcall true
    have hsummary : calibSummary ((ensureCalib (repoEnv true) (benchPrepare "r_57")).outcome
        ⟨served [repoMoment false], benchWorld⟩).1 =
          some (true, false, some "19100", some "19131") := by decide +kernel
    rw [hrun] at hsummary
    have hanswer : ((repoMoment true).answer (served [repoMoment false])).isPrepared = true := by
      decide +kernel
    rcases (calibs_transparent repo_registries hhistory (m := repoMoment true) ⟨true, rfl⟩).2.2
      (benchPrepare "r_57") rfl with ⟨exc, hfailed⟩ | ⟨live, hlive, hcomposed⟩
    · rw [hfailed] at hanswer
      exact absurd hanswer (by simp [failure, repoMoment, Msg.isPrepared])
    · obtain rfl := hcomposed.afresh calib hfresh
      exact ⟨live, timing, q, hrun, hsummary, hfresh, hlive⟩

end DonutServer
