/-
Which exposures are resolved.

The handles of an exposure are gathered under the numbers of their detectors and counted
afterwards, so of two files of one detector the later one takes the place of the other
before anyone looks.  Eight detectors are then found in a directory of nine files.  A
replay's live files have been told apart by the names of their detectors before, and there
are no more of them than there are substitutes.
-/
import Mathlib.Data.List.Dedup
import DonutServer.Producer.Replay

namespace DonutServer.Producer

variable {A : Afw} {env : DiskEnv A} {headers : Option (OrderedDict String A.Header)}
  {directory imgtype : String} {files : List (ResolvedFile A)} {source : ExposureSource A}

/-! ### What is checked

The checks are read off the code and stated as one condition on the files that were found: all of
them readable, one filter, one exposure, eight detectors.  Nothing asks how many files there were.
-/

/-- What is checked of an exposure: every file can be read, they are all of one known filter
and of one exposure, and their detectors are eight. -/
structure Checked (env : DiskEnv A) (headers : Option (OrderedDict String A.Header))
    (directory : String) (files : List (ResolvedFile A)) : Prop where
  paths : swPaths env directory = .ok (files.map (·.handle.path))
  resolved : ∀ f ∈ files, resolveFile env headers f.handle.path = .ok f
  oneFilter : ∃ physicalFilter ∈ knownPhysicalFilters, ∀ f ∈ files, f.physicalFilter = physicalFilter
  oneExposure : ∃ visit, ∀ f ∈ files, f.exposureId = visit
  detectors : (files.map (·.handle.detectorNum)).dedup.length = expectedSensors

/-- There is a handle for each detector. -/
theorem size_handlesOf : (handlesOf files).size = (files.map (·.handle.detectorNum)).dedup.length := by
  have hperm : (handlesOf files).keys.Perm (files.map (·.handle.detectorNum)).dedup := by
    refine (List.perm_ext_iff_of_nodup (handlesOf files).nodup (List.nodup_dedup _)).mpr fun num => ?_
    rw [List.mem_dedup]
    refine OrderedDict.mem_keys_update.trans ((or_iff_right List.not_mem_nil).trans ?_)
    rw [List.map_map]
    rfl
  have hlength := hperm.length_eq
  unfold OrderedDict.keys at hlength
  rwa [List.length_map] at hlength

/-- A value on which all agree is the value of each. -/
theorem oneOf_eq_ok {α : Type} [DecidableEq α] {values : List α} {error : List α → Exn} {a : α}
    (hne : values ≠ []) (h : ∀ b ∈ values, b = a) : oneOf values error = .ok a := by
  have hdedup : values.dedup = [a] := by
    rw [List.eq_replicate_of_mem h, List.replicate_dedup (by rwa [Ne, List.length_eq_zero_iff])]
  unfold oneOf
  rw [hdedup]

/-- What is resolved has passed the checks. -/
theorem checked_of_resolved (h : resolveExposureDir env directory headers = .ok (source, imgtype)) :
    ∃ files, Checked env headers directory files ∧ source.handles = handlesOf files ∧
      ∀ f ∈ files, f.exposureId = source.visit := by
  obtain ⟨paths, files, hpaths, hfiles, hhandles, hsize, hvisit, hfilter⟩ := resolveExposureDir_ok h
  obtain ⟨pairs, rfl, rfl, hpairs⟩ := Except.mapM_eq_ok.mp hfiles
  have hpath : ∀ p ∈ pairs, p.2.handle.path = p.1 := by
    intro p hp
    obtain ⟨-, -, -, -, -, -, -, -, -, -, hpath, -⟩ := resolveFile_ok (hpairs p hp)
    exact hpath
  refine ⟨pairs.map Prod.snd, ⟨?_, fun f hf => ?_, hfilter, ⟨source.visit, hvisit⟩, ?_⟩, hhandles,
    hvisit⟩
  · rw [hpaths, List.map_map]
    exact congrArg Except.ok (List.map_congr_left fun p hp => (hpath p hp).symm)
  · obtain ⟨p, hp, rfl⟩ := List.mem_map.mp hf
    rw [hpath p hp]
    exact hpairs p hp
  · rw [← size_handlesOf, ← hhandles]
    exact hsize

/-- What passes the checks is resolved. -/
theorem Checked.resolves (h : Checked env headers directory files) :
    ∃ source imgtype, resolveExposureDir env directory headers = .ok (source, imgtype) := by
  have hfiles : (files.map (·.handle.path)).mapM (resolveFile env headers) = .ok files := by
    refine Except.mapM_eq_ok.mpr ⟨files.map fun f => (f.handle.path, f), ?_, ?_, fun p hp => ?_⟩
    · rw [List.map_map]
      rfl
    · rw [List.map_map]
      exact List.map_id' files
    · obtain ⟨f, hf, rfl⟩ := List.mem_map.mp hp
      exact h.resolved f hf
  have hne : files ≠ [] := by
    intro hnil
    have hnone := h.detectors
    rw [hnil, List.map_nil, List.dedup_nil] at hnone
    exact absurd hnone (by decide)
  have hall : ∀ {α : Type} {g : ResolvedFile A → α} {a : α}, (∀ f ∈ files, g f = a) →
      ∀ b ∈ files.map g, b = a := by
    intro α g a hg b hb
    obtain ⟨f, hf, rfl⟩ := List.mem_map.mp hb
    exact hg f hf
  obtain ⟨physicalFilter, hknown, hfilter⟩ := h.oneFilter
  obtain ⟨visit, hvisit⟩ := h.oneExposure
  have hmap : ∀ {α : Type} (g : ResolvedFile A → α), files.map g ≠ [] :=
    fun g hnil => hne (List.map_eq_nil_iff.mp hnil)
  have hreturns : ∃ result, resolveExposureDir env directory headers = .ok result := by
    refine Except.bind_returns h.paths (Except.bind_returns hfiles ?_)
    refine Except.bind_returns (oneOf_eq_ok (hmap _) (hall hfilter)) ?_
    refine Except.bind_returns (oneOf_eq_ok (hmap _) (hall hvisit)) ?_
    rw [if_neg (not_not.mpr (size_handlesOf.trans h.detectors))]
    exact Except.bind_returns (if_pos hknown) ⟨_, rfl⟩
  obtain ⟨⟨source, imgtype⟩, hresult⟩ := hreturns
  exact ⟨source, imgtype, hresult⟩

/-! ### Complete exposures

There are two ways for something else to pass.  More files than detectors pass when some of them
are of one detector, and files of other directories pass when the path that is asked for is a
pattern.  Where neither is the case, what is resolved is complete.
-/

/-- **What is to be accepted**: the directory has eight files, of eight detectors and of one
exposure, they are what was found, and the source has a handle for each of them. -/
def Complete (env : DiskEnv A) (headers : Option (OrderedDict String A.Header))
    (directory : String) (source : ExposureSource A) : Prop :=
  ∃ files : List (ResolvedFile A), swPaths env directory = .ok (files.map (·.handle.path)) ∧
    ownPaths env.toFileTree directory = files.map (·.handle.path) ∧
    (∀ f ∈ files, resolveFile env headers f.handle.path = .ok f) ∧
    files.length = expectedSensors ∧ (files.map (·.handle.detectorNum)).Nodup ∧
    (∀ f ∈ files, f.exposureId = source.visit) ∧
    source.handles.entries = files.map fun f => (f.handle.detectorNum, f.handle)

/-- More than eight files pass the checks: two of them are of one detector. -/
def Crowded (env : DiskEnv A) (headers : Option (OrderedDict String A.Header))
    (directory : String) : Prop :=
  ∃ files, Checked env headers directory files ∧ expectedSensors < files.length

/-- What passes the checks was found by reading the directory's path as a pattern, and is not
what the directory holds. -/
def Strayed (env : DiskEnv A) (headers : Option (OrderedDict String A.Header))
    (directory : String) : Prop :=
  (∃ files, Checked env headers directory files) ∧ ¬ Literal env.toFileTree directory

/-- Where there are no more than eight files, and they are the directory's own, what is
resolved is complete. -/
theorem complete_of_own (hcrowded : ¬ Crowded env headers directory)
    (hstrayed : ¬ Strayed env headers directory)
    (h : resolveExposureDir env directory headers = .ok (source, imgtype)) :
    Complete env headers directory source := by
  obtain ⟨files, hchecked, hhandles, hvisit⟩ := checked_of_resolved h
  have hliteral : Literal env.toFileTree directory := by
    by_contra hnot
    exact hstrayed ⟨⟨files, hchecked⟩, hnot⟩
  have hown : ownPaths env.toFileTree directory = files.map (·.handle.path) :=
    hliteral.symm.trans (swPaths_ok hchecked.paths).1
  have hle : files.length ≤ expectedSensors := by
    by_contra hmore
    exact hcrowded ⟨files, hchecked, not_le.mp hmore⟩
  have hsize : (handlesOf files).size = expectedSensors := size_handlesOf.trans hchecked.detectors
  -- No handle took the place of another.
  have hnodup : ((files.map fun f => (f.handle.detectorNum, f.handle)).map Prod.fst).Nodup := by
    refine OrderedDict.nodup_of_size_update ?_
    rw [List.length_map]
    exact hle.trans hsize.ge
  have hentries : source.handles.entries = files.map fun f => (f.handle.detectorNum, f.handle) := by
    rw [hhandles]
    exact OrderedDict.entries_update hnodup
  refine ⟨files, hchecked.paths, hown, hchecked.resolved, ?_, ?_, hvisit, hentries⟩
  · rw [← hsize, ← hhandles, OrderedDict.size, hentries, List.length_map]
  · rwa [List.map_map] at hnodup

/-- Nine files are not an exposure. -/
theorem Crowded.not_complete (h : Crowded env headers directory) :
    ¬ Complete env headers directory source := by
  intro hcomplete
  obtain ⟨files, hchecked, hmore⟩ := h
  obtain ⟨files', hpaths, -, -, hlength, -, -, -⟩ := hcomplete
  have hsame := congrArg List.length (Except.ok.inj (hchecked.paths.symm.trans hpaths))
  rw [List.length_map, List.length_map, hlength] at hsame
  exact absurd hsame hmore.ne'

/-- Files of other directories are not an exposure of this one. -/
theorem Strayed.not_complete (h : Strayed env headers directory) :
    ¬ Complete env headers directory source := by
  intro hcomplete
  obtain ⟨files, hpaths, hown, -⟩ := hcomplete
  exact h.2 ((swPaths_ok hpaths).1.trans hown.symm)

/-- A replay's live files all have names of their own, each with a substitute. -/
theorem not_crowded_of_replayed {env : ReplayEnv A} {replayDir : String} {report : Bool}
    {lines : List String} (hset : env.environ replayDirVar = some replayDir) (hne : replayDir ≠ "")
    (h : substitutedHeaders env directory report = .ok (headers, lines)) :
    ¬ Crowded env.toDiskEnv headers directory := by
  obtain ⟨substituted, live, liveHeaders, exposure, substitutes, rfl, hlive, hof, -, -, -, hsize⟩ :=
    substitutedHeaders_ok hset hne h
  intro hcrowded
  obtain ⟨files, hchecked, hmore⟩ := hcrowded
  obtain rfl := Except.ok.inj (hlive.symm.trans hchecked.paths)
  have hle : (files.map (·.handle.path)).length ≤ substituted.size := by
    refine length_live_le hof fun path hpath => ?_
    obtain ⟨f, hf, rfl⟩ := List.mem_map.mp hpath
    obtain ⟨name, header, hread, hmem⟩ := resolveFile_name (hchecked.resolved f hf)
    exact ⟨name, header, _, hread, hmem⟩
  rw [List.length_map, hsize] at hle
  exact absurd hle (not_le.mpr hmore)

/-- **What is accepted.**  Whatever headers it is given, `resolve_exposure_dir` accepts
complete exposures only exactly if no more than eight files pass its checks and they are the
directory's own.  Those a replay gives it never come with more than eight files, and a path
that is no pattern never finds files of other directories. -/
theorem accepts_exactly_complete (env : ReplayEnv A) (directory : String) :
    (∀ headers, (∀ source imgtype,
        resolveExposureDir env.toDiskEnv directory headers = .ok (source, imgtype) →
          Complete env.toDiskEnv headers directory source) ↔
        ¬ Crowded env.toDiskEnv headers directory ∧ ¬ Strayed env.toDiskEnv headers directory) ∧
      (∀ replayDir report headers lines, env.environ replayDirVar = some replayDir →
        replayDir ≠ "" → substitutedHeaders env directory report = .ok (headers, lines) →
          ¬ Crowded env.toDiskEnv headers directory) ∧
      (Glob.hasMagic directory = false → ∀ headers, ¬ Strayed env.toDiskEnv headers directory) := by
  refine ⟨fun headers => ⟨fun hall => ⟨fun hcrowded => ?_, fun hstrayed => ?_⟩, ?_⟩, ?_, ?_⟩
  · obtain ⟨files, hchecked, hmore⟩ := hcrowded
    obtain ⟨source, imgtype, h⟩ := hchecked.resolves
    exact Crowded.not_complete ⟨files, hchecked, hmore⟩ (hall source imgtype h)
  · obtain ⟨⟨files, hchecked⟩, hnot⟩ := hstrayed
    obtain ⟨source, imgtype, h⟩ := hchecked.resolves
    exact Strayed.not_complete ⟨⟨files, hchecked⟩, hnot⟩ (hall source imgtype h)
  · exact fun hboth source imgtype h => complete_of_own hboth.1 hboth.2 h
  · intro replayDir report headers lines hset hne h
    exact not_crowded_of_replayed hset hne h
  · exact fun hplain headers hstrayed => hstrayed.2 (literal_of_plain hplain)

/-- An exposure's directory with two files of one sensor. -/
def benchCrowded : DiskEnv replayAfw :=
  { benchReplay.toDiskEnv with
    listing := fun _ => "b_R00_SW0.fits" :: cornerNumbers.map fun entry => s!"a_{entry.1}.fits" }

/-- The exposure is in a directory beside the one that is asked for, whose name matches it. -/
def benchStrayed : DiskEnv replayAfw :=
  { benchReplay.toDiskEnv with
    listing := fun dir =>
      if dir = "" then ["d1"]
      else if dir = "d1" then cornerNumbers.map fun entry => s!"a_{entry.1}.fits"
      else [] }

/-- **A file that is dropped.**  Nine files are resolved, and eight handles come of them.  And
eight files are resolved of a directory that has none. -/
theorem crowded_is_accepted :
    (∃ source imgtype, resolveExposureDir benchCrowded "live" none = .ok (source, imgtype) ∧
      (swPaths benchCrowded "live").toOption.map List.length = some 9 ∧
      source.handles.size = 8 ∧ ¬ Complete benchCrowded none "live" source) ∧
    ∃ source imgtype, resolveExposureDir benchStrayed "d[1]" none = .ok (source, imgtype) ∧
      ownPaths benchStrayed.toFileTree "d[1]" = [] ∧
      ¬ Complete benchStrayed none "d[1]" source := by
  refine ⟨?_, ?_⟩
  · have hrun : (resolveExposureDir benchCrowded "live" none).toOption.map
        (fun r => r.1.handles.size) = some 8 := by decide +kernel
    have hnine : (swPaths benchCrowded "live").toOption.map List.length = some 9 := by
      decide +kernel
    rcases hresolve : resolveExposureDir benchCrowded "live" none with exc | ⟨source, imgtype⟩
    · rw [hresolve] at hrun
      exact absurd hrun (by simp [Except.toOption])
    · rw [hresolve] at hrun
      refine ⟨source, imgtype, rfl, hnine, Option.some.inj hrun, fun hcomplete => ?_⟩
      obtain ⟨files, hpaths, -, -, hlength, -, -, -⟩ := hcomplete
      rw [hpaths, Except.toOption, Option.map_some, List.length_map, hlength] at hnine
      exact absurd hnine (by decide)
  · have hrun : (resolveExposureDir benchStrayed "d[1]" none).toOption.isSome = true := by
      decide +kernel
    have hnone : ownPaths benchStrayed.toFileTree "d[1]" = [] := by decide +kernel
    rcases hresolve : resolveExposureDir benchStrayed "d[1]" none with exc | ⟨source, imgtype⟩
    · rw [hresolve] at hrun
      exact absurd hrun (by simp [Except.toOption])
    · refine ⟨source, imgtype, rfl, hnone, fun hcomplete => ?_⟩
      obtain ⟨files, -, hown, -, hlength, -⟩ := hcomplete
      have hempty := congrArg List.length (hown.symm.trans hnone)
      rw [List.length_map, hlength] at hempty
      exact absurd hempty (by decide)

end DonutServer.Producer
