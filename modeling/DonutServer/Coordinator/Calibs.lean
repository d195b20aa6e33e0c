/-
The two calib backends.

A backend first resolves a prepare to the identity of each calib half, cheaply, and
only then loads what is not cached under that identity.  Two resolutions that give
one identity must therefore load the same calibs; that is `Lawful`, and it is what
the caches rest on.  The files backend is lawful because its identities leave nothing
out, and the butler one because a dataset's id determines the dataset.
-/
import Mathlib.Data.Finset.Image
import DonutServer.Lib.Result
import DonutServer.Coordinator.Stack

namespace DonutServer

open PyText

variable {S : Stack}

/-! ### What is loaded

A set of calibs has two halves, because they change at different rates: that of the detectors,
which is the same for every filter, and that of one filter.  Each half has an identity of its own,
and is kept and replaced by itself.
-/

/-- `DetectorCalibs`. -/
structure DetectorCalibs (S : Stack) where
  detectorIds : List Nat
  namesById : OrderedDict Nat String
  ptcByName : OrderedDict String S.Calib
  linearizerByName : OrderedDict String S.Calib
  crosstalkByName : OrderedDict String S.Calib

/-- `FilterCalibs`. -/
structure FilterCalibs (S : Stack) where
  physicalFilter : String
  flatByName : OrderedDict String S.Calib
  intrinsicZernikesByName : OrderedDict String S.Calib

/-- `CalibSet`. -/
structure CalibSet (S : Stack) where
  detector : DetectorCalibs S
  filtered : FilterCalibs S

/-- The identity of one calib half: a name, or the ids of the datasets it is made of. -/
inductive CalibId
  | name (name : String)
  | datasets (ids : Finset Nat)
  deriving DecidableEq

/-- `CalibIds`. -/
structure CalibIds where
  detector : CalibId
  filtered : CalibId

/-- A backend.  `Resolved` is what `resolve` leaves on the object for the loads. -/
structure CalibBackend (S : Stack) where
  Resolved : Type
  name : String
  check : Except Exn Unit
  resolve : PrepareCommand → Except Exn (CalibIds × Resolved)
  loadDetector : Resolved → Except Exn (DetectorCalibs S)
  loadFilter : Resolved → CalibIds → DetectorCalibs S → Except Exn (FilterCalibs S)

/-- Identities name what is loaded, and nothing but the filter and the time is resolved. -/
structure CalibBackend.Lawful (b : CalibBackend S) : Prop where
  resolve : ∀ {c c' : PrepareCommand}, c.physicalFilter = c'.physicalFilter →
    c.calibTime = c'.calibTime → b.resolve c = b.resolve c'
  detector : ∀ {c c' ids ids' r r'}, b.resolve c = .ok (ids, r) → b.resolve c' = .ok (ids', r') →
    ids.detector = ids'.detector → b.loadDetector r = b.loadDetector r'
  filtered : ∀ {c c' ids ids' r r' d d'}, b.resolve c = .ok (ids, r) →
    b.resolve c' = .ok (ids', r') → ids.filtered = ids'.filtered → b.loadDetector r = .ok d →
    b.loadDetector r' = .ok d' → b.loadFilter r ids d = b.loadFilter r' ids' d'
  physicalFilter : ∀ {c ids r d v}, b.resolve c = .ok (ids, r) → b.loadFilter r ids d = .ok v →
    v.physicalFilter = c.physicalFilter

/-- The calibs a backend resolves for a prepare. -/
def CalibBackend.calibsFor (b : CalibBackend S) (c : PrepareCommand) :
    Except Exn (CalibSet S) := do
  let (ids, r) ← b.resolve c
  let detector ← b.loadDetector r
  let filtered ← b.loadFilter r ids detector
  pure ⟨detector, filtered⟩

/-! ### Calibs as files

The calibs stand in one directory, named by type, detector and filter.  There is nothing to
resolve: the detector half has one name at all times, and the filter half goes by its filter.  The
detectors are found by listing the directory for the one type that every detector has.
-/

section Files

variable (env : Env S)

/-- `calib_dir`. -/
def calibDir : Except Exn String :=
  env.required "DONUT_SERVER_CALIB_DIR"
    ("DONUT_SERVER_CALIB_DIR is not set; point it at the directory " ++
      "holding ptc_*.fits, linearizer_*.fits, flat_*.fits (see README). " ++
      "Required only under DONUT_SERVER_CALIB_BACKEND=files (the default).")

/-- The id in `ptc_<id>.fits`, if that is what the name is.  The digits may be those of any
script, as `\d` and `int` take them. -/
def ptcId (name : String) : Option Nat :=
  let l := name.toList
  let digits := (l.drop 4).take (l.length - 9)
  if "ptc_".toList.isPrefixOf l ∧ ".fits".toList.isSuffixOf l ∧ digits ≠ [] ∧
      digits.all isDecimal then some (decimal digits)
  else none

/-- `_discover_detector_ids`. -/
def discoverDetectorIds (calibDir : String) : Except Exn (List Nat) :=
  match (env.listFiles calibDir).filterMap ptcId with
  | [] => .error (.runtime s!"No ptc_*.fits calib files found in {reprText calibDir}")
  | ids => .ok ids

/-- The loop of `_build_detector_calibs`. -/
def readDetectors (calibs : String) : List Nat → DetectorCalibs S →
    Except Exn (DetectorCalibs S)
  | [], d => pure d
  | id :: rest, d => do
      let (name, ptc) ← env.readPtc (joinPath calibs s!"ptc_{id}.fits")
      let linearizer ← env.readCalib (joinPath calibs s!"linearizer_{id}.fits")
      let crosstalk ← env.readCalib (joinPath calibs s!"crosstalk_{id}.fits")
      readDetectors calibs rest
        { d with
          namesById := d.namesById.set id name
          ptcByName := d.ptcByName.set name ptc
          linearizerByName := d.linearizerByName.set name linearizer
          crosstalkByName := d.crosstalkByName.set name crosstalk }

/-- `_build_detector_calibs`. -/
def buildDetectorCalibs : Except Exn (DetectorCalibs S) := do
  let calibs ← calibDir env
  let ids ← discoverDetectorIds env calibs
  readDetectors env calibs ids ⟨ids, .empty, .empty, .empty, .empty⟩

/-- The loop of `_build_filter_calibs`. -/
def readFlats (calibs physicalFilter : String) (detector : DetectorCalibs S) :
    List Nat → FilterCalibs S → Except Exn (FilterCalibs S)
  | [], v => pure v
  | id :: rest, v =>
      match detector.namesById.get? id with
      | none => .error ⟨.other "KeyError", toString id⟩
      | some name => do
          let flatPath := joinPath calibs s!"flat_{id}_{physicalFilter}.fits"
          if ¬ env.pathExists flatPath then
            .error (.runtime (s!"Missing required flat calib for detector {name} ({id}), " ++
              s!"physical_filter {reprText physicalFilter}: {flatPath}"))
          else
            let flat ← env.readCalib flatPath
            let v := { v with flatByName := v.flatByName.set name flat }
            let izPath := joinPath calibs s!"intrinsicZernikes_{id}_{physicalFilter}.fits"
            if env.pathExists izPath then
              let iz ← env.readCalib izPath
              readFlats calibs physicalFilter detector rest
                { v with intrinsicZernikesByName := v.intrinsicZernikesByName.set name iz }
            else readFlats calibs physicalFilter detector rest v

/-- `_build_filter_calibs`. -/
def buildFilterCalibs (physicalFilter : String) (detector : DetectorCalibs S) :
    Except Exn (FilterCalibs S) := do
  let calibs ← calibDir env
  readFlats env calibs physicalFilter detector detector.detectorIds
    ⟨physicalFilter, .empty, .empty⟩

/-- `FilesCalibBackend.check`. -/
def filesCheck : Except Exn Unit := do
  let d ← calibDir env
  if ¬ env.isDir d then
    .error ⟨.calibConfigError, s!"DONUT_SERVER_CALIB_DIR {reprText d} is not a directory."⟩
  else if env.listFiles d = [] then
    .error ⟨.calibConfigError,
      s!"DONUT_SERVER_CALIB_DIR {reprText d} holds no .fits files; expected " ++
      "ptc_*.fits, linearizer_*.fits, flat_*.fits (see README)."⟩
  else pure ()

/-- `FilesCalibBackend`: one calib to a type, detector and filter, whatever the time. -/
def filesCalibBackend : CalibBackend S where
  Resolved := String
  name := "files"
  check := filesCheck env
  resolve c := .ok (⟨.name "files", .name c.physicalFilter⟩, c.physicalFilter)
  loadDetector _ := buildDetectorCalibs env
  loadFilter physicalFilter _ detector := buildFilterCalibs env physicalFilter detector

end Files

/-! ### Calibs from a repo

The butler backend asks the registry for each wanted dataset in turn, and a half is made of
whatever was found.  Its identity is the list of the dataset ids.  Between resolving and loading
the backend keeps the refs on itself, so that what is loaded is what was resolved; `FoundCalibs` is
that state, passed along.
-/

section Butler

variable (env : Env S)

/-- `CORNER_DETECTOR_NAMES`. -/
def cornerDetectorNames : List (Nat × String) :=
  [(191, "R00_SW0"), (192, "R00_SW1"), (195, "R04_SW0"), (196, "R04_SW1"), (199, "R40_SW0"),
    (200, "R40_SW1"), (203, "R44_SW0"), (204, "R44_SW1")]

/-- `DETECTOR_TYPES`. -/
def detectorTypes : List String := ["ptc", "linearizer", "crosstalk"]

/-- `FILTER_TYPES`. -/
def filterTypes : List String := ["flat", "intrinsicZernikes"]

/-- `OPTIONAL_TYPES`. -/
def optionalTypes : List String := ["intrinsicZernikes"]

/-- `butler_repo`. -/
def butlerRepo : Except Exn String :=
  env.required "DONUT_SERVER_BUTLER_REPO"
    ("DONUT_SERVER_BUTLER_REPO is not set, but " ++
      "DONUT_SERVER_CALIB_BACKEND=butler requires it; point it at a " ++
      "butler repo root or an alias (see README).")

/-- `butler_collections`. -/
def butlerCollections : Except Exn (List String) :=
  let raw := env.environOr "DONUT_SERVER_BUTLER_COLLECTIONS" "LSSTCam/defaults"
  match ((raw.toList.splitOn ',').map fun name => strip (String.ofList name)).filter (· ≠ "") with
  | [] =>
      .error (.runtime (s!"DONUT_SERVER_BUTLER_COLLECTIONS is set to {reprText raw}, which names " ++
        "no collections; unset it for the default (LSSTCam/defaults)."))
  | names => .ok names

/-- `_flatten_collections`. -/
def flattenCollections (collections : List String) : Except Exn (List String) := do
  let flat ← env.queryInfo collections
  if flat = [] then
    let repo ← butlerRepo env
    .error ⟨.calibConfigError,
      s!"Collections {reprList collections} resolved to nothing in " ++
      s!"{reprText repo}; is the repo the one you meant?"⟩
  else pure flat

/-- `_calib_timespan`. -/
def calibTimespan (calibTime : String) : Except Exn S.Timespan :=
  match env.parseTime calibTime with
  | .ok t => .ok t
  | .error exc =>
      .error ⟨.calibTimeError,
        s!"calib_time {reprText calibTime} is not a parseable time: {exc.text}"⟩

/-- The dataset types in turn, and the corner detectors in turn for each. -/
def wantedCalibs (types : List String) : List (String × Nat × String) :=
  types.flatMap fun datasetType => cornerDetectorNames.map fun det => (datasetType, det)

/-- The raise of `_find` for a calib that is required and not there. -/
def noCalib (datasetType : String) (det : Nat × String) (physicalFilter : Option String)
    (timespan : S.Timespan) (collections : List String) : Exn :=
  let filterPart := match physicalFilter with
    | none => ""
    | some f => s!", physical_filter {reprText f}"
  .runtime (s!"No {datasetType} calib resolved for detector {det.2} ({det.1})" ++ filterPart ++
    s!" at {env.reprTimespan timespan} in collections {reprList collections}.")

/-- `_find`, over what is still to be looked for. -/
def findCalibs (collections : List String) (timespan : S.Timespan)
    (physicalFilter : Option String) :
    List (String × Nat × String) → Except Exn (List (String × Nat × DatasetRef))
  | [] => pure []
  | (datasetType, det) :: rest => do
      match ← env.findDataset datasetType ⟨det.1, physicalFilter⟩ collections timespan with
      | none =>
          if datasetType ∈ optionalTypes then findCalibs collections timespan physicalFilter rest
          else .error (noCalib env datasetType det physicalFilter timespan collections)
      | some ref =>
          let found ← findCalibs collections timespan physicalFilter rest
          pure ((datasetType, det.1, ref) :: found)

/-- What the butler backend remembers between resolving and loading. -/
structure FoundCalibs where
  detectorRefs : List (String × Nat × DatasetRef)
  filterRefs : List (String × Nat × DatasetRef)
  physicalFilter : String

/-- The ids of what was found. -/
def datasetIds (found : List (String × Nat × DatasetRef)) : Finset Nat :=
  (found.map fun x => x.2.2.id).toFinset

/-- `CORNER_DETECTOR_NAMES[det_id]`. -/
def cornerName (id : Nat) : Except Exn String :=
  match cornerDetectorNames.lookup id with
  | some name => .ok name
  | none => .error ⟨.other "KeyError", toString id⟩

/-- The loop of `_get_all`. -/
def getAll : List (String × Nat × DatasetRef) → OrderedDict String (OrderedDict String S.Calib) →
    Except Exn (OrderedDict String (OrderedDict String S.Calib))
  | [], out => pure out
  | (datasetType, id, ref) :: rest, out => do
      let name ← cornerName id
      let calib ← env.getDataset ref
      getAll rest (out.set datasetType (((out.get? datasetType).getD .empty).set name calib))

/-- `by_type[dataset_type]`. -/
def calibsOfType (byType : OrderedDict String (OrderedDict String S.Calib)) (datasetType : String) :
    Except Exn (OrderedDict String S.Calib) :=
  match byType.get? datasetType with
  | some calibs => .ok calibs
  | none => .error ⟨.other "KeyError", reprText datasetType⟩

/-- `ButlerCalibBackend.check`.  The message for a repo that does not open asks for its
name again, so where the name is what is missing that complaint is what gets out. -/
def butlerCheck : Except Exn Unit := do
  match (do env.openButler (← butlerRepo env)) with
  | .error exc =>
      let repo ← butlerRepo env
      .error ⟨.calibConfigError,
        s!"DONUT_SERVER_BUTLER_REPO {reprText repo} is not a usable butler repo: {exc.text}"⟩
  | .ok () =>
      match (do flattenCollections env (← butlerCollections env)) with
      | .ok _ => pure ()
      | .error exc =>
          if exc.cls = .calibConfigError then .error exc
          else
            let collections ← butlerCollections env
            let repo ← butlerRepo env
            .error ⟨.calibConfigError,
              s!"DONUT_SERVER_BUTLER_COLLECTIONS {reprList collections} " ++
              s!"cannot be resolved in {reprText repo}: {exc.text}"⟩

/-- `ButlerCalibBackend.resolve`. -/
def butlerResolve (c : PrepareCommand) : Except Exn (CalibIds × FoundCalibs) := do
  let timespan ← calibTimespan env c.calibTime
  env.openButler (← butlerRepo env)
  let collections ← flattenCollections env (← butlerCollections env)
  let detectorRefs ← findCalibs env collections timespan none (wantedCalibs detectorTypes)
  let filterRefs ←
    findCalibs env collections timespan (some c.physicalFilter) (wantedCalibs filterTypes)
  pure (⟨.datasets (datasetIds detectorRefs), .datasets (datasetIds filterRefs)⟩,
    ⟨detectorRefs, filterRefs, c.physicalFilter⟩)

/-- `ButlerCalibBackend`. -/
def butlerCalibBackend : CalibBackend S where
  Resolved := FoundCalibs
  name := "butler"
  check := butlerCheck env
  resolve := butlerResolve env
  loadDetector r := do
    env.openButler (← butlerRepo env)
    let byType ← getAll env r.detectorRefs .empty
    pure
      { detectorIds := cornerDetectorNames.map Prod.fst
        namesById := OrderedDict.empty.update cornerDetectorNames
        ptcByName := ← calibsOfType byType "ptc"
        linearizerByName := ← calibsOfType byType "linearizer"
        crosstalkByName := ← calibsOfType byType "crosstalk" }
  loadFilter r _ _ := do
    env.openButler (← butlerRepo env)
    let byType ← getAll env r.filterRefs .empty
    pure
      { physicalFilter := r.physicalFilter
        flatByName := ← calibsOfType byType "flat"
        intrinsicZernikesByName := (byType.get? "intrinsicZernikes").getD .empty }

end Butler

/-- `calib_backend`. -/
def calibBackend (env : Env S) : Except Exn (CalibBackend S) :=
  let kind := env.environOr "DONUT_SERVER_CALIB_BACKEND" "files"
  if kind = "files" then .ok (filesCalibBackend env)
  else if kind = "butler" then .ok (butlerCalibBackend env)
  else
    .error (.runtime (s!"DONUT_SERVER_CALIB_BACKEND is {reprText kind}; valid values are 'files' " ++
      "(the default, flat FITS under DONUT_SERVER_CALIB_DIR) and 'butler' " ++
      "(resolved from DONUT_SERVER_BUTLER_REPO)."))

/-- `check_calib_config`. -/
def checkCalibConfig (env : Env S) : Except Exn Unit :=
  match calibBackend env with
  | .error exc => .error ⟨.calibConfigError, exc.text⟩
  | .ok backend => backend.check

/-! ### Both backends are lawful

For the files backend this is immediate.  For the butler one the ids have to determine the
datasets.  An id names one dataset, which is what registries promise; so two searches with the same
ids found the same refs, in the same places, since each ref says for which type and detector it was
found.  That the filter is part of the identity follows too, because a flat is required and says
which filter it is of.
-/

section Lawful

variable {env : Env S}

theorem readFlats_physicalFilter {calibs physicalFilter : String} {detector : DetectorCalibs S}
    {ids : List Nat} {v v' : FilterCalibs S}
    (h : readFlats env calibs physicalFilter detector ids v = .ok v') :
    v'.physicalFilter = v.physicalFilter := by
  induction ids generalizing v with
  | nil =>
      unfold readFlats at h
      rw [← Except.ok.inj h]
  | cons id rest ih =>
      unfold readFlats at h
      split at h
      · exact absurd h (by simp)
      · dsimp only at h
        split at h
        · exact absurd h (by simp)
        · obtain ⟨flat, -, h⟩ := Except.bind_eq_ok.mp h
          split at h
          · obtain ⟨iz, -, h⟩ := Except.bind_eq_ok.mp h
            have hrest := ih h
            exact hrest
          · have hrest := ih h
            exact hrest

/-- The files backend is lawful: all that its loads go by is the filter, and the identity says
that. -/
theorem files_lawful : (filesCalibBackend env).Lawful := by
  refine ⟨?_, ?_, ?_, ?_⟩
  · intro c c' hfilter _
    show Except.ok (_, _) = Except.ok (_, _)
    rw [hfilter]
  · intro c c' ids ids' r r' _ _ _
    rfl
  · intro c c' ids ids' r r' d d' h h' hids hd hd'
    obtain ⟨rfl, rfl⟩ := Prod.mk.inj (Except.ok.inj h)
    obtain ⟨rfl, rfl⟩ := Prod.mk.inj (Except.ok.inj h')
    have hd : buildDetectorCalibs env = .ok d := hd
    have hd' : buildDetectorCalibs env = .ok d' := hd'
    obtain rfl : d = d' := Except.ok.inj (hd.symm.trans hd')
    show buildFilterCalibs env c.physicalFilter d = buildFilterCalibs env c'.physicalFilter d
    rw [CalibId.name.inj hids]
  · intro c ids r d v h hv
    obtain ⟨rfl, rfl⟩ := Prod.mk.inj (Except.ok.inj h)
    obtain ⟨calibs, -, hread⟩ := Except.bind_eq_ok.mp hv
    exact readFlats_physicalFilter hread

/-- What a registry's refs are: descriptions of the dataset that was asked for, told
apart by their ids. -/
structure Env.RefsIdentify (env : Env S) : Prop where
  describes : ∀ {datasetType dataId collections timespan ref},
    env.findDataset datasetType dataId collections timespan = .ok (some ref) →
      ref.datasetType = datasetType ∧ ref.dataId = dataId
  unique : ∀ {datasetType dataId collections timespan ref datasetType' dataId' collections'
      timespan' ref'},
    env.findDataset datasetType dataId collections timespan = .ok (some ref) →
      env.findDataset datasetType' dataId' collections' timespan' = .ok (some ref') →
        ref.id = ref'.id → ref = ref'

/-- Two registries, or one at two times, whose refs describe what was asked for and are told
apart by their ids across the two. -/
structure Env.RefsAgree (env env' : Env S) : Prop where
  left : ∀ {datasetType dataId collections timespan ref},
    env.findDataset datasetType dataId collections timespan = .ok (some ref) →
      ref.datasetType = datasetType ∧ ref.dataId = dataId
  right : ∀ {datasetType dataId collections timespan ref},
    env'.findDataset datasetType dataId collections timespan = .ok (some ref) →
      ref.datasetType = datasetType ∧ ref.dataId = dataId
  unique : ∀ {datasetType dataId collections timespan ref datasetType' dataId' collections'
      timespan' ref'},
    env.findDataset datasetType dataId collections timespan = .ok (some ref) →
      env'.findDataset datasetType' dataId' collections' timespan' = .ok (some ref') →
        ref.id = ref'.id → ref = ref'

theorem Env.RefsIdentify.agree (h : env.RefsIdentify) : env.RefsAgree env :=
  ⟨h.describes, h.describes, h.unique⟩

/-- It does not matter which of the two registries comes first. -/
theorem Env.RefsAgree.symm {env' : Env S} (h : env.RefsAgree env') : env'.RefsAgree env :=
  ⟨h.right, h.left, fun hfound hfound' hid => (h.unique hfound' hfound hid.symm).symm⟩

/-- The ref found for one type and detector. -/
def refAt (env : Env S) (collections : List String) (timespan : S.Timespan)
    (physicalFilter : Option String) (x : String × Nat × String) : Option DatasetRef :=
  match env.findDataset x.1 ⟨x.2.1, physicalFilter⟩ collections timespan with
  | .ok found => found
  | .error _ => none

/-- A ref that stands for a type and detector was found for them. -/
theorem refAt_eq_some {collections : List String} {timespan : S.Timespan}
    {physicalFilter : Option String} {x : String × Nat × String} {ref : DatasetRef} :
    refAt env collections timespan physicalFilter x = some ref ↔
      env.findDataset x.1 ⟨x.2.1, physicalFilter⟩ collections timespan = .ok (some ref) := by
  unfold refAt
  split
  · next h => rw [h, Except.ok.injEq]
  · next h => simp [h]

variable {collections collections' : List String} {timespan timespan' : S.Timespan}
  {physicalFilter physicalFilter' : Option String} {l : List (String × Nat × String)}
  {found found' : List (String × Nat × DatasetRef)}

/-- What `_find` returns, and that it found what is required. -/
theorem findCalibs_eq (h : findCalibs env collections timespan physicalFilter l = .ok found) :
    found = l.filterMap (fun x =>
        (refAt env collections timespan physicalFilter x).map fun ref => (x.1, x.2.1, ref)) ∧
      ∀ x ∈ l, x.1 ∉ optionalTypes → refAt env collections timespan physicalFilter x ≠ none := by
  induction l generalizing found with
  | nil =>
      obtain rfl := Except.ok.inj h
      exact ⟨rfl, fun x hx => absurd hx List.not_mem_nil⟩
  | cons x rest ih =>
      obtain ⟨datasetType, det⟩ := x
      unfold findCalibs at h
      obtain ⟨result, hresult, h⟩ := Except.bind_eq_ok.mp h
      have hat : refAt env collections timespan physicalFilter (datasetType, det) = result := by
        unfold refAt
        rw [hresult]
      cases result with
      | none =>
          dsimp only at h
          by_cases hopt : datasetType ∈ optionalTypes
          · rw [if_pos hopt] at h
            obtain ⟨heq, hreq⟩ := ih h
            refine ⟨by rw [List.filterMap_cons_none (by rw [hat]; rfl)]; exact heq, ?_⟩
            intro y hy hnot
            rcases List.mem_cons.mp hy with rfl | hy
            · exact absurd hopt hnot
            · exact hreq y hy hnot
          · rw [if_neg hopt] at h
            exact absurd h (by simp)
      | some ref =>
          obtain ⟨more, hmore, h⟩ := Except.bind_eq_ok.mp h
          obtain ⟨heq, hreq⟩ := ih hmore
          refine ⟨?_, ?_⟩
          · rw [List.filterMap_cons_some (by rw [hat]; rfl), ← heq]
            exact (Except.ok.inj h).symm
          · intro y hy hnot
            rcases List.mem_cons.mp hy with rfl | hy
            · rw [hat]
              exact Option.some_ne_none ref
            · exact hreq y hy hnot

variable {env' : Env S}

/-- Where the ids found by one search are among those of another, so are the refs. -/
theorem refAt_subset (hrefs : env.RefsAgree env')
    (h : findCalibs env collections timespan physicalFilter l = .ok found)
    (h' : findCalibs env' collections' timespan' physicalFilter' l = .ok found')
    (hids : datasetIds found ⊆ datasetIds found') {x : String × Nat × String} (hx : x ∈ l)
    {ref : DatasetRef} (hat : refAt env collections timespan physicalFilter x = some ref) :
    refAt env' collections' timespan' physicalFilter' x = some ref ∧
      physicalFilter = physicalFilter' := by
  have hmem : (x.1, x.2.1, ref) ∈ found := by
    rw [(findCalibs_eq h).1]
    exact List.mem_filterMap.mpr ⟨x, hx, by rw [hat]; rfl⟩
  have hid : ref.id ∈ datasetIds found' :=
    hids (List.mem_toFinset.mpr (List.mem_map.mpr ⟨_, hmem, rfl⟩))
  obtain ⟨y, hy, hyid⟩ := List.mem_map.mp (List.mem_toFinset.mp hid)
  rw [(findCalibs_eq h').1] at hy
  obtain ⟨x', -, hx'⟩ := List.mem_filterMap.mp hy
  obtain ⟨ref', hat', rfl⟩ := Option.map_eq_some_iff.mp hx'
  have hfound := refAt_eq_some.mp hat
  have hfound' := refAt_eq_some.mp hat'
  obtain rfl : ref = ref' := hrefs.unique hfound hfound' hyid.symm
  obtain ⟨htype, hdata⟩ := hrefs.left hfound
  obtain ⟨htype', hdata'⟩ := hrefs.right hfound'
  obtain ⟨hdet, hfilter⟩ := DataId.mk.inj (hdata.symm.trans hdata')
  refine ⟨?_, hfilter⟩
  rw [refAt_eq_some, htype.symm.trans htype', hdet]
  exact hfound'

/-- **Two searches that found datasets of the same ids found the same datasets.** -/
theorem findCalibs_congr (hrefs : env.RefsAgree env')
    (h : findCalibs env collections timespan physicalFilter l = .ok found)
    (h' : findCalibs env' collections' timespan' physicalFilter' l = .ok found')
    (hids : datasetIds found = datasetIds found') : found = found' := by
  rw [(findCalibs_eq h).1, (findCalibs_eq h').1]
  refine List.filterMap_congr fun x hx => ?_
  have hat : refAt env collections timespan physicalFilter x =
      refAt env' collections' timespan' physicalFilter' x := by
    refine Option.ext fun ref => ⟨?_, ?_⟩
    · exact fun hat => (refAt_subset hrefs h h' hids.subset hx hat).1
    · exact fun hat => (refAt_subset hrefs.symm h' h hids.symm.subset hx hat).1
  rw [hat]

/-- The flats are required, so the datasets a filter half is made of name the filter. -/
theorem findCalibs_filter (hrefs : env.RefsAgree env')
    (h : findCalibs env collections timespan physicalFilter (wantedCalibs filterTypes) = .ok found)
    (h' : findCalibs env' collections' timespan' physicalFilter' (wantedCalibs filterTypes) =
      .ok found')
    (hids : datasetIds found = datasetIds found') : physicalFilter = physicalFilter' := by
  have hx : ("flat", 191, "R00_SW0") ∈ wantedCalibs filterTypes := by decide
  obtain ⟨ref, hat⟩ := Option.ne_none_iff_exists'.mp
    ((findCalibs_eq h).2 _ hx (by decide))
  exact (refAt_subset hrefs h h' hids.subset hx hat).2

/-- What a resolution that succeeded went through. -/
theorem butlerResolve_eq_ok {c : PrepareCommand} {ids : CalibIds} {r : FoundCalibs}
    (h : butlerResolve env c = .ok (ids, r)) : ∃ timespan collections,
      findCalibs env collections timespan none (wantedCalibs detectorTypes) = .ok r.detectorRefs ∧
      findCalibs env collections timespan (some c.physicalFilter) (wantedCalibs filterTypes) =
        .ok r.filterRefs ∧
      ids = ⟨.datasets (datasetIds r.detectorRefs), .datasets (datasetIds r.filterRefs)⟩ ∧
      r.physicalFilter = c.physicalFilter := by
  unfold butlerResolve at h
  obtain ⟨timespan, -, h⟩ := Except.bind_eq_ok.mp h
  obtain ⟨repo, -, h⟩ := Except.bind_eq_ok.mp h
  obtain ⟨-, -, h⟩ := Except.bind_eq_ok.mp h
  obtain ⟨names, -, h⟩ := Except.bind_eq_ok.mp h
  obtain ⟨collections, -, h⟩ := Except.bind_eq_ok.mp h
  obtain ⟨detectorRefs, hdetector, h⟩ := Except.bind_eq_ok.mp h
  obtain ⟨filterRefs, hfilter, h⟩ := Except.bind_eq_ok.mp h
  obtain ⟨rfl, rfl⟩ := Prod.mk.inj (Except.ok.inj h)
  exact ⟨timespan, collections, hdetector, hfilter, rfl, rfl⟩

/-- The detector halves two resolutions name alike are made of the same datasets. -/
theorem butlerResolve_detector {c c' : PrepareCommand} {ids ids' : CalibIds} {r r' : FoundCalibs}
    (hrefs : env.RefsAgree env') (h : butlerResolve env c = .ok (ids, r))
    (h' : butlerResolve env' c' = .ok (ids', r')) (hids : ids.detector = ids'.detector) :
    r.detectorRefs = r'.detectorRefs := by
  obtain ⟨_, _, hdet, _, rfl, _⟩ := butlerResolve_eq_ok h
  obtain ⟨_, _, hdet', _, rfl, _⟩ := butlerResolve_eq_ok h'
  exact findCalibs_congr hrefs hdet hdet' (CalibId.datasets.inj hids)

/-- So are the filter halves, and they are of the same filter. -/
theorem butlerResolve_filtered {c c' : PrepareCommand} {ids ids' : CalibIds} {r r' : FoundCalibs}
    (hrefs : env.RefsAgree env') (h : butlerResolve env c = .ok (ids, r))
    (h' : butlerResolve env' c' = .ok (ids', r')) (hids : ids.filtered = ids'.filtered) :
    r.filterRefs = r'.filterRefs ∧ r.physicalFilter = r'.physicalFilter := by
  obtain ⟨_, _, _, hfil, rfl, hname⟩ := butlerResolve_eq_ok h
  obtain ⟨_, _, _, hfil', rfl, hname'⟩ := butlerResolve_eq_ok h'
  have hids := CalibId.datasets.inj hids
  refine ⟨findCalibs_congr hrefs hfil hfil' hids, ?_⟩
  rw [hname, hname']
  exact Option.some.inj (findCalibs_filter hrefs hfil hfil' hids)

/-- **The butler backend is lawful**, where ids tell datasets apart. -/
theorem butler_lawful (hrefs : env.RefsIdentify) : (butlerCalibBackend env).Lawful := by
  refine ⟨?_, ?_, ?_, ?_⟩
  · intro c c' hfilter htime
    show butlerResolve env c = butlerResolve env c'
    unfold butlerResolve
    rw [hfilter, htime]
  · intro c c' ids ids' r r' h h' hids
    have heq := butlerResolve_detector hrefs.agree h h' hids
    show (do env.openButler (← butlerRepo env); _) = (do env.openButler (← butlerRepo env); _)
    rw [heq]
  · intro c c' ids ids' r r' d d' h h' hids _ _
    obtain ⟨heq, hfilter⟩ := butlerResolve_filtered hrefs.agree h h' hids
    show (do env.openButler (← butlerRepo env); _) = (do env.openButler (← butlerRepo env); _)
    rw [heq, hfilter]
  · intro c ids r d v h hv
    obtain ⟨_, _, _, _, _, hname⟩ := butlerResolve_eq_ok h
    obtain ⟨_, -, hv⟩ := Except.bind_eq_ok.mp hv
    obtain ⟨_, -, hv⟩ := Except.bind_eq_ok.mp hv
    obtain ⟨_, -, hv⟩ := Except.bind_eq_ok.mp hv
    obtain ⟨_, -, hv⟩ := Except.bind_eq_ok.mp hv
    rw [← Except.ok.inj hv]
    exact hname

/-- **Whichever backend is configured is lawful.** -/
theorem calibBackend_lawful (hrefs : env.RefsIdentify) {backend : CalibBackend S}
    (h : calibBackend env = .ok backend) : backend.Lawful := by
  unfold calibBackend at h
  dsimp only at h
  split at h
  · rw [← Except.ok.inj h]
    exact files_lawful
  · split at h
    · rw [← Except.ok.inj h]
      exact butler_lawful hrefs
    · exact absurd h (by simp)

end Lawful

end DonutServer
