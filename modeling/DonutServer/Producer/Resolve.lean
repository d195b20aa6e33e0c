/-
Resolving the directory of one exposure.

`resolveExposureDir` reads the header of every corner sensor's file, each in place of the
one it is given to substitute for it, and puts the files together under the numbers of
their detectors.  What the file system holds is a parameter, and so is what the stack makes of
a header; nothing changes while a directory is resolved.
-/
import DonutServer.Producer.Parallel
import DonutServer.SensorFiles

namespace DonutServer.Producer

open PyText

variable {A : Afw}

/-! ### What is read

Of the file system it is what a glob finds and what a header says, and of the stack what it makes
of a header.  Reading may fail for any file.
-/

/-- `ObservationInfo`, as far as it is looked at: the filter and the type as `str` shows
them, what `int` makes of the exposure's id, and the midpoint of its two instants. -/
structure ObsInfo where
  detectorNum : Nat
  physicalFilter : String
  exposureId : Except Exn Int
  observationType : String
  trackingRadec : Option (ℚ × ℚ)
  midpoint : Except Exn String

structure DiskEnv (A : Afw) extends CameraEnv A, Glob.FileTree where
  /-- `read_header(path)` -/
  readHeader : String → Except Exn A.Header
  /-- `obs_info(header, filename=path)` -/
  obsInfo : A.Header → String → Except Exn ObsInfo

def swPaths (env : DiskEnv A) (directory : String) : Except Exn (List String) :=
  let paths := sortedPaths env.toFileTree directory
  if paths ≠ [] then .ok paths
  else if Glob.glob env.toFileTree (joinPath directory (swPattern ++ ".fz")) ≠ [] then
    .error (.runtime (reprText directory ++ s!" holds only fpacked {swPattern}.fz files; this " ++
      "producer reads uncompressed DAQ files, so it must run before the " ++
      "compression step (or be taught to funpack)"))
  else .error (.runtime s!"no {swPattern} files in {reprText directory}")

/-- What is found is what the pattern finds, and that is not nothing. -/
theorem swPaths_ok {env : DiskEnv A} {directory : String} {paths : List String}
    (h : swPaths env directory = .ok paths) :
    sortedPaths env.toFileTree directory = paths ∧ paths ≠ [] := by
  unfold swPaths at h
  simp only at h
  split at h
  · rename_i hne
    obtain rfl := Except.ok.inj h
    exact ⟨rfl, hne⟩
  · split at h <;> exact absurd h (by simp)

/-! ### One file

Two headers have a part in one file.  The live one says which detector the pixels are of; the
other, where there is one, says all the rest.
-/

/-- What the loop gathers of one file. -/
structure ResolvedFile (A : Afw) where
  handle : RawHandle A
  physicalFilter : String
  exposureId : Int
  imageType : String
  pointing : ℚ × ℚ
  midpoint : String

/-- `headers[name]`, where there are headers, and otherwise the live one. -/
def substitute (headers : Option (OrderedDict String A.Header)) (live : A.Header)
    (name path : String) : Except Exn A.Header :=
  match headers with
  | none => .ok live
  | some headers =>
      match headers.get? name with
      | some header => .ok header
      | none =>
          .error (.runtime (s!"no substitute header for detector {name} ({baseName path}); have " ++
            reprList (sortedTexts headers.keys)))

def resolveFile (env : DiskEnv A) (headers : Option (OrderedDict String A.Header))
    (path : String) : Except Exn (ResolvedFile A) := do
  let live ← env.readHeader path
  let name ← detectorName env.toCameraEnv live
  -- The live header still decides which detector this is.
  let liveInfo ← env.obsInfo live path
  let header ← substitute headers live name path
  let info ← env.obsInfo header path
  let exposureId ← info.exposureId
  match info.trackingRadec with
  | none =>
      .error (.runtime (baseName path ++ " has no tracking_radec; its RA/DEC " ++
        "headers are unpopulated, so no WCS can be built for it"))
  | some pointing =>
      let midpoint ← info.midpoint
      .ok ⟨⟨path, header, liveInfo.detectorNum⟩, info.physicalFilter, exposureId,
        info.observationType, pointing, midpoint⟩

/-! ### The exposure

The files are put into a dict by the number of their detector, and then counted; their filters and
their exposures are compared across all of them.
-/

/-- `KNOWN_PHYSICAL_FILTERS`, sorted. -/
def knownPhysicalFilters : List String := ["g_6", "i_39", "r_57", "u_24", "y_10", "z_20"]

/-- `_check_known_filter`. -/
def checkKnownFilter (visit : Int) (physicalFilter : String) : Except Exn String :=
  if physicalFilter ∈ knownPhysicalFilters then .ok physicalFilter
  else
    .error (.runtime (s!"visit {visit} has physical_filter {reprText physicalFilter}, which this " ++
      s!"service has no calibs for; known: {reprList knownPhysicalFilters}"))

/-- An exposure whose headers have been read, none of its pixels. -/
structure ExposureSource (A : Afw) extends RawSource A where
  visit : Int
  physicalFilter : String
  boresight : ℚ × ℚ
  calibTime : String

/-- The handles, each under its number. -/
def handlesOf (files : List (ResolvedFile A)) : OrderedDict Nat (RawHandle A) :=
  OrderedDict.empty.update (files.map fun f => (f.handle.detectorNum, f.handle))

theorem handlesOf_keyed (files : List (ResolvedFile A)) :
    ∀ entry ∈ (handlesOf files).entries, entry.2.detectorNum = entry.1 := by
  have h : (handlesOf files).Forall fun num handle => handle.detectorNum = num := by
    refine OrderedDict.Forall.update (OrderedDict.forall_empty _) fun e he => ?_
    obtain ⟨f, -, rfl⟩ := List.mem_map.mp he
    rfl
  exact fun entry hentry => h entry.1 entry.2 hentry

/-- A set of numbers, sorted. -/
def sortedNumbers (l : List Int) : List Int := l.insertionSort (· ≤ ·)

/-- The one value that all of them are. -/
def oneOf {α : Type} [DecidableEq α] (values : List α) (error : List α → Exn) : Except Exn α :=
  match values.dedup with
  | [a] => .ok a
  | several => .error (error several)

/-- `resolve_exposure_dir`, with headers to substitute where there are any. -/
def resolveExposureDir (env : DiskEnv A) (directory : String)
    (headers : Option (OrderedDict String A.Header)) : Except Exn (ExposureSource A × String) := do
  let paths ← swPaths env directory
  let files ← paths.mapM (resolveFile env headers)
  let physicalFilter ← oneOf (files.map (·.physicalFilter)) fun filters =>
    .runtime (s!"{reprText directory} spans physical_filters " ++ reprList (sortedTexts filters))
  let exposureId ← oneOf (files.map (·.exposureId)) fun ids =>
    .runtime (s!"{reprText directory} spans exposures " ++ reprNumbers (sortedNumbers ids))
  if (handlesOf files).size ≠ expectedSensors then
    .error (.runtime (s!"{reprText directory} has {(handlesOf files).size} corner sensor(s), " ++
      s!"expected {expectedSensors}: detectors " ++
      reprNumbers (sortedNumbers ((handlesOf files).keys.map Int.ofNat))))
  else
    let known ← checkKnownFilter exposureId physicalFilter
    .ok (
      { handles := handlesOf files
        keyed := handlesOf_keyed files
        visit := exposureId
        physicalFilter := known
        boresight := (files.map (·.pointing)).headD (0, 0)
        calibTime := (sortedTexts (files.map (·.midpoint))).headD "" },
      "/".intercalate (sortedTexts (files.map (·.imageType)).dedup))

/-! ### What a resolved exposure holds

Each function, with all that is known once it has returned.  What uses them does not unfold them
again.
-/

variable {env : DiskEnv A} {headers : Option (OrderedDict String A.Header)}

/-- **One file.**  Its detector is the live header's, its observation the other header's. -/
theorem resolveFile_ok {path : String} {f : ResolvedFile A}
    (h : resolveFile env headers path = .ok f) :
    ∃ live name liveInfo info, env.readHeader path = .ok live ∧
      detectorName env.toCameraEnv live = .ok name ∧ env.obsInfo live path = .ok liveInfo ∧
      substitute headers live name path = .ok f.handle.header ∧
      env.obsInfo f.handle.header path = .ok info ∧ info.exposureId = .ok f.exposureId ∧
      f.handle.path = path ∧ f.handle.detectorNum = liveInfo.detectorNum := by
  unfold resolveFile at h
  obtain ⟨live, hlive, h⟩ := Except.bind_eq_ok.mp h
  obtain ⟨name, hname, h⟩ := Except.bind_eq_ok.mp h
  obtain ⟨liveInfo, hliveInfo, h⟩ := Except.bind_eq_ok.mp h
  obtain ⟨header, hheader, h⟩ := Except.bind_eq_ok.mp h
  obtain ⟨info, hinfo, h⟩ := Except.bind_eq_ok.mp h
  obtain ⟨exposureId, hid, h⟩ := Except.bind_eq_ok.mp h
  split at h
  · exact absurd h (by simp)
  · obtain ⟨midpoint, -, h⟩ := Except.bind_eq_ok.mp h
    obtain rfl := Except.ok.inj h
    exact ⟨live, name, liveInfo, info, hlive, hname, hliveInfo, hheader, hinfo, hid, rfl, rfl⟩

/-- A value that all of them have is the value of each. -/
theorem oneOf_ok {α : Type} [DecidableEq α] {values : List α} {error : List α → Exn} {a : α}
    (h : oneOf values error = .ok a) : ∀ b ∈ values, b = a := by
  unfold oneOf at h
  split at h
  · rename_i a' hdedup
    intro b hb
    rw [← List.mem_dedup, hdedup] at hb
    rw [List.mem_singleton.mp hb, Except.ok.inj h]
  · exact absurd h (by simp)

/-- A filter that is let through is a known one. -/
theorem checkKnownFilter_ok {visit : Int} {physicalFilter known : String}
    (h : checkKnownFilter visit physicalFilter = .ok known) :
    physicalFilter ∈ knownPhysicalFilters := by
  unfold checkKnownFilter at h
  split at h
  · assumption
  · exact absurd h (by simp)

/-- **One exposure.**  Its eight handles are those of its files, all of one known filter and
of one exposure. -/
theorem resolveExposureDir_ok {directory imgtype : String} {source : ExposureSource A}
    (h : resolveExposureDir env directory headers = .ok (source, imgtype)) :
    ∃ paths files, swPaths env directory = .ok paths ∧
      paths.mapM (resolveFile env headers) = .ok files ∧ source.handles = handlesOf files ∧
      source.handles.size = expectedSensors ∧ (∀ f ∈ files, f.exposureId = source.visit) ∧
      ∃ physicalFilter ∈ knownPhysicalFilters, ∀ f ∈ files, f.physicalFilter = physicalFilter := by
  unfold resolveExposureDir at h
  obtain ⟨paths, hpaths, h⟩ := Except.bind_eq_ok.mp h
  obtain ⟨files, hfiles, h⟩ := Except.bind_eq_ok.mp h
  obtain ⟨physicalFilter, hfilter, h⟩ := Except.bind_eq_ok.mp h
  obtain ⟨exposureId, hid, h⟩ := Except.bind_eq_ok.mp h
  by_cases hsize : (handlesOf files).size = expectedSensors
  · rw [if_neg (not_not.mpr hsize)] at h
    obtain ⟨known, hknown, h⟩ := Except.bind_eq_ok.mp h
    obtain ⟨rfl, -⟩ := Prod.mk.inj (Except.ok.inj h)
    refine ⟨paths, files, hpaths, hfiles, rfl, hsize, fun f hf => ?_, physicalFilter,
      checkKnownFilter_ok hknown, fun f hf => ?_⟩
    · exact oneOf_ok hid _ (List.mem_map.mpr ⟨f, hf, rfl⟩)
    · exact oneOf_ok hfilter _ (List.mem_map.mpr ⟨f, hf, rfl⟩)
  · rw [if_pos hsize] at h
    exact absurd h (by simp)

end DonutServer.Producer
