/-
What was watched and what is returned.

The loop watches sensors: it keeps the size of one file for each, and waits for eight of
them not to change.  The paths it returns are those of a look of their own at the
directory, taken after the last poll, which asks for neither a sidecar nor a size.  The two
agree in a directory where nothing else is going on.

That nothing else goes on is said of the directory alone: of the files it held when the
window was opened, of what became of them, and of what was found in the end.  Sizes do not
come into it.  That they did not change is what the loop has seen to, and all that it has.
-/
import DonutServer.Coordinator.Calibs
import DonutServer.Trigger.Settle

namespace DonutServer.Trigger

/-! ### Files that last

What a caller wants are eight files, of one sensor each, that were there with their sidecars and
did not change.  `Watched` says that the paths returned are these.  `Disturbed` lists what may
happen in a directory so that they are not, with no word on any size.
-/

/-- The sensors of an exposure. -/
def cornerSensors : List String := cornerDetectorNames.map Prod.snd

/-- A poll counts the file, at this size. -/
def Poll.Counts (directory : String) (p : Poll) (path : String) (size : Nat) : Prop :=
  path ∈ p.paths directory ∧ ∃ stat, p.counted path = some stat ∧ stat.value = size

/-- A poll finds the file, with its sidecar. -/
def Poll.Finds (directory : String) (p : Poll) (path : String) : Prop :=
  ∃ size, p.Counts directory path size

/-- Every poll counted the file, and at one size. -/
def Lasted (directory : String) (window : List Poll) (path : String) : Prop :=
  ∃ size, ∀ p ∈ window, p.Counts directory path size

/-- The paths are those of eight files, one for each sensor, and these are the files that
lasted. -/
def Watched (directory : String) (window : List Poll) (paths : List String) : Prop :=
  (paths.map sensorOf).Perm cornerSensors ∧ ∀ path, path ∈ paths ↔ Lasted directory window path

/-- What else can go on while an exposure is waited for, from the poll that opened the window
to the last look at the directory. -/
inductive Disturbed (directory : String) (opening : Poll) (window : List Poll)
    (again : Glob.FileTree) : Prop
  /-- A file is there in the end that was not there at first, or not with its sidecar. -/
  | appeared (path : String) : path ∈ sortedPaths again directory →
      ¬ opening.Finds directory path → Disturbed directory opening window again
  /-- A file that was is gone in between, or its sidecar is. -/
  | lost (path : String) (p : Poll) : opening.Finds directory path → p ∈ window →
      ¬ p.Finds directory path → Disturbed directory opening window again
  /-- A file that was is gone in the end. -/
  | vanished (path : String) : opening.Finds directory path →
      path ∉ sortedPaths again directory → Disturbed directory opening window again
  /-- A file is one of no corner sensor. -/
  | foreign (path : String) : opening.Finds directory path → sensorOf path ∉ cornerSensors →
      Disturbed directory opening window again
  /-- Two files are there in the end for one sensor. -/
  | doubled : ¬ ((sortedPaths again directory).map sensorOf).Nodup →
      Disturbed directory opening window again

/-- A poll found two files of one sensor, and kept the size of one of them. -/
def Shared (directory : String) (window : List Poll) : Prop :=
  ∃ p ∈ window, ∃ path path', p.Finds directory path ∧ p.Finds directory path' ∧
    path ≠ path' ∧ sensorOf path = sensorOf path'

variable {p last opening : Poll} {window before rest : List Poll} {path sensor directory : String}
  {size : Nat}

/-! ### Files and sensors

A poll's sensors are those of the files it finds.  Where no two of them are of one sensor the
size that is kept for the sensor is the file's, so that a file is of the same size in two
polls that find the same.
-/

theorem mem_keys_addTo {found : OrderedDict String Nat} :
    sensor ∈ (p.addTo found path).keys ↔
      sensor ∈ found.keys ∨ (∃ stat, p.counted path = some stat) ∧ sensorOf path = sensor := by
  unfold Poll.addTo
  rcases p.counted path with _ | stat
  · simp
  · rw [OrderedDict.mem_keys_set]
    constructor
    · intro h
      rcases h with rfl | h
      · exact Or.inr ⟨⟨stat, rfl⟩, rfl⟩
      · exact Or.inl h
    · intro h
      rcases h with h | ⟨-, rfl⟩
      · exact Or.inr h
      · exact Or.inl rfl

/-- The sensors that are found are those of the files that count. -/
theorem mem_keys_pollOnce : sensor ∈ (pollOnce directory p).keys ↔
    ∃ path, p.Finds directory path ∧ sensorOf path = sensor := by
  suffices h : ∀ (paths : List String) (found : OrderedDict String Nat),
      sensor ∈ (paths.foldl p.addTo found).keys ↔ sensor ∈ found.keys ∨
        ∃ path ∈ paths, (∃ stat, p.counted path = some stat) ∧ sensorOf path = sensor by
    refine (h (p.paths directory) .empty).trans ((or_iff_right List.not_mem_nil).trans ?_)
    constructor
    · rintro ⟨path, hpath, ⟨stat, hstat⟩, hsensor⟩
      exact ⟨path, ⟨stat.value, hpath, stat, hstat, rfl⟩, hsensor⟩
    · rintro ⟨path, ⟨size, hpath, stat, hstat, -⟩, hsensor⟩
      exact ⟨path, hpath, ⟨stat, hstat⟩, hsensor⟩
  intro paths
  induction paths with
  | nil => simp
  | cons path paths ih =>
      intro found
      rw [List.foldl_cons, ih, mem_keys_addTo, List.exists_mem_cons_iff, or_assoc]

/-- The size that is kept is that of the sensor's only file. -/
theorem Poll.Counts.get? (h : p.Counts directory path size) (hp : p ∈ window)
    (hshared : ¬ Shared directory window) :
    (pollOnce directory p).get? (sensorOf path) = some size := by
  obtain ⟨o, ho⟩ := mem_pollOnce.mp (mem_keys_pollOnce.mpr ⟨path, ⟨size, h⟩, rfl⟩)
  obtain ⟨path', hpath', hsensor, hcounted⟩ := mem_of_observed ho
  have hsame : path = path' := by
    by_contra hne
    exact hshared ⟨p, hp, path, path', ⟨size, h⟩, ⟨o.value, hpath', o, hcounted, rfl⟩, hne,
      hsensor.symm⟩
  obtain ⟨-, stat, hstat, rfl⟩ := h
  rw [← hsame, hstat] at hcounted
  rw [get?_pollOnce, ho, ← Option.some.inj hcounted]
  rfl

/-- A file that every poll of the window finds is of one size in all of them. -/
theorem lasted_of_finds (hopening : opening ∈ window)
    (hsame : ∀ p ∈ window, (pollOnce directory p).Same (pollOnce directory opening))
    (hshared : ¬ Shared directory window) (hfinds : ∀ p ∈ window, p.Finds directory path) :
    Lasted directory window path := by
  obtain ⟨size, hsize⟩ := hfinds opening hopening
  refine ⟨size, fun p hp => ?_⟩
  obtain ⟨size', hsize'⟩ := hfinds p hp
  have hget := (hsize'.get? hp hshared).symm.trans
    ((hsame p hp (sensorOf path)).trans (hsize.get? hopening hshared))
  rwa [Option.some.inj hget] at hsize'

theorem Lasted.finds (h : Lasted directory window path) (hp : p ∈ window) :
    p.Finds directory path := by
  obtain ⟨size, hall⟩ := h
  exact ⟨size, hall p hp⟩

/-! ### The two looks at the directory

The window has looked at the directory for as long as the sizes did not change, and the last look
is taken when it is over.  The sensors are counted in the first and the files are returned by the
second; the proof compares the two file by file, in both directions.
-/

theorem cornerSensors_nodup : cornerSensors.Nodup := by decide

/-- Eight sensors among the corner sensors are the corner sensors, and so are eight that have
them among them. -/
theorem perm_cornerSensors (hsize : (pollOnce directory opening).size = expectedSensors)
    (h : (pollOnce directory opening).keys ⊆ cornerSensors ∨
      cornerSensors ⊆ (pollOnce directory opening).keys) :
    (pollOnce directory opening).keys.Perm cornerSensors := by
  have hlength : (pollOnce directory opening).keys.length = cornerSensors.length := by
    unfold OrderedDict.keys
    rw [List.length_map]
    exact hsize
  rcases h with h | h
  · exact (List.subperm_of_subset (pollOnce directory opening).nodup h).perm_of_length_le hlength.ge
  · exact ((List.subperm_of_subset cornerSensors_nodup h).perm_of_length_le hlength.le).symm

/-- Where nothing else goes on, the last look finds what was watched. -/
theorem watched_of_not_disturbed {again : Glob.FileTree} (hopening : opening ∈ window)
    (hsize : (pollOnce directory opening).size = expectedSensors)
    (hsame : ∀ p ∈ window, (pollOnce directory p).Same (pollOnce directory opening))
    (hshared : ¬ Shared directory window) (h : ¬ Disturbed directory opening window again) :
    Watched directory window (sortedPaths again directory) := by
  have hmem : ∀ path, path ∈ sortedPaths again directory ↔ opening.Finds directory path := by
    intro path
    constructor
    · intro hpath
      by_contra hfinds
      exact h (.appeared path hpath hfinds)
    · intro hfinds
      by_contra hpath
      exact h (.vanished path hfinds hpath)
  have hsensors : ∀ sensor, sensor ∈ (sortedPaths again directory).map sensorOf ↔
      sensor ∈ (pollOnce directory opening).keys := by
    intro sensor
    rw [mem_keys_pollOnce, List.mem_map]
    exact exists_congr fun path => and_congr_left' (hmem path)
  have hcorner : (pollOnce directory opening).keys.Perm cornerSensors := by
    refine perm_cornerSensors hsize (Or.inl fun sensor hsensor => ?_)
    obtain ⟨path, hfinds, rfl⟩ := mem_keys_pollOnce.mp hsensor
    by_contra hforeign
    exact h (.foreign path hfinds hforeign)
  refine ⟨?_, fun path => ?_⟩
  · have honce : ((sortedPaths again directory).map sensorOf).Nodup := by
      by_contra hdoubled
      exact h (.doubled hdoubled)
    refine (List.perm_ext_iff_of_nodup honce cornerSensors_nodup).mpr fun sensor => ?_
    exact (hsensors sensor).trans hcorner.mem_iff
  · rw [hmem]
    constructor
    · intro hfinds
      refine lasted_of_finds hopening hsame hshared fun p hp => ?_
      by_contra hlost
      exact h (.lost path p hfinds hp hlost)
    · intro hlasted
      exact hlasted.finds hopening

/-- What is returned is not what was watched where anything else goes on. -/
theorem not_disturbed_of_watched {again : Glob.FileTree} (hopening : opening ∈ window)
    (hsize : (pollOnce directory opening).size = expectedSensors)
    (hshared : ¬ Shared directory window)
    (h : Watched directory window (sortedPaths again directory)) :
    ¬ Disturbed directory opening window again := by
  obtain ⟨hsensors, hmem⟩ := h
  have hcorner : (pollOnce directory opening).keys.Perm cornerSensors := by
    refine perm_cornerSensors hsize (Or.inr fun sensor hsensor => ?_)
    obtain ⟨path, hpath, rfl⟩ := List.mem_map.mp (hsensors.mem_iff.mpr hsensor)
    exact mem_keys_pollOnce.mpr ⟨path, ((hmem path).mp hpath).finds hopening, rfl⟩
  -- A file that was there at first is the one that is returned for its sensor.
  have hreturned : ∀ path, opening.Finds directory path → path ∈ sortedPaths again directory := by
    intro path hfinds
    have hkey := hcorner.mem_iff.mp (mem_keys_pollOnce.mpr ⟨path, hfinds, rfl⟩)
    obtain ⟨path', hpath', hsensor⟩ := List.mem_map.mp (hsensors.mem_iff.mpr hkey)
    by_contra hgone
    refine hshared ⟨opening, hopening, path, path', hfinds,
      ((hmem path').mp hpath').finds hopening, ?_, hsensor.symm⟩
    rintro rfl
    exact hgone hpath'
  intro hdisturbed
  rcases hdisturbed with ⟨path, hpath, hfinds⟩ | ⟨path, p, hfinds, hp, hlost⟩ |
    ⟨path, hfinds, hgone⟩ | ⟨path, hfinds, hforeign⟩ | hdoubled
  · exact hfinds (((hmem path).mp hpath).finds hopening)
  · exact hlost (((hmem path).mp (hreturned path hfinds)).finds hp)
  · exact hgone (hreturned path hfinds)
  · exact hforeign (hcorner.mem_iff.mp (mem_keys_pollOnce.mpr ⟨path, hfinds, rfl⟩))
  · exact hdoubled (hsensors.nodup_iff.mpr cornerSensors_nodup)

variable {timeout interval settleTime startedAt previousAt completeAt : ℚ} {paths : List String}

/-- **What is returned is what was watched**, where no poll of the window found two files of
one sensor, exactly if nothing else went on in the directory from the poll that opened the
window to the last look. -/
theorem watched_is_returned
    (hwaiting : waitForExposure directory timeout interval settleTime startedAt previousAt before =
      none)
    (hreturned : waitForExposure directory timeout interval settleTime startedAt previousAt
      (before ++ [last]) = some (.ok (paths, completeAt))) :
    ∃ earlier opening rest,
      Window directory (before ++ [last]) earlier opening (rest ++ [last]) ∧
      opening.polledAt = completeAt ∧ settleTime ≤ last.polledAt - opening.polledAt ∧
      (¬ Shared directory (opening :: (rest ++ [last])) →
        (Watched directory (opening :: (rest ++ [last])) paths ↔
          ¬ Disturbed directory opening (opening :: (rest ++ [last])) last.again)) := by
  obtain ⟨earlier, opening, rest, hwindow, hsize, rfl, hsettled, rfl⟩ :=
    returned_window hwaiting hreturned
  have hopening : opening ∈ opening :: (rest ++ [last]) := List.mem_cons_self ..
  have hsame : ∀ p ∈ opening :: (rest ++ [last]),
      (pollOnce directory p).Same (pollOnce directory opening) :=
    List.forall_mem_cons.mpr ⟨fun _ => rfl, hwindow.same⟩
  have hsize : (pollOnce directory opening).size = expectedSensors :=
    (hwindow.last_same List.getLast?_concat).size.symm.trans hsize
  refine ⟨earlier, opening, rest, hwindow, rfl, hsettled, fun hshared => ⟨?_, ?_⟩⟩
  · exact not_disturbed_of_watched hopening hsize hshared
  · exact watched_of_not_disturbed hopening hsize hsame hshared

/-- What a poll of the directory of the eight files finds. -/
theorem benchPoll_finds {a b : ℚ} :
    (benchPoll a b).Finds "d" path ↔ path ∈ benchNames.map (PyText.joinPath "d") := by
  have hpaths : (benchPoll 0 0).paths "d" = benchNames.map (PyText.joinPath "d") := by
    decide +kernel
  have hexists : ∀ path ∈ benchNames.map (PyText.joinPath "d"),
      (benchPoll 0 0).pathExists (sidecarOf path) = true := by decide +kernel
  constructor
  · rintro ⟨size, hpath, -⟩
    exact hpaths ▸ hpath
  · intro hpath
    have hcounted : (benchPoll a b).counted path = some ⟨512, b⟩ :=
      (if_pos (hexists path hpath)).trans (if_pos hpath)
    exact ⟨512, hpaths.symm ▸ hpath, ⟨512, b⟩, hcounted, rfl⟩

/-- Two polls of a directory that holds the eight files and no other. -/
theorem watched_is_returned_prompt :
    ∃ earlier opening rest,
      Window "d" ([benchPoll 0 0] ++ [benchPoll 1 1]) earlier opening (rest ++ [benchPoll 1 1]) ∧
      opening.polledAt = 0 ∧ (1 : ℚ) ≤ (benchPoll 1 1).polledAt - opening.polledAt ∧
      Watched "d" (opening :: (rest ++ [benchPoll 1 1]))
        (sortedPaths (oneDirectory "d" benchNames) "d") := by
  have hfound : sortedPaths (oneDirectory "d" benchNames) "d" =
      benchNames.map (PyText.joinPath "d") := by decide +kernel
  have hsensors : (benchNames.map (PyText.joinPath "d")).map sensorOf = cornerSensors := by
    decide +kernel
  have hnodup : ((benchNames.map (PyText.joinPath "d")).map sensorOf).Nodup := by
    rw [hsensors]
    exact cornerSensors_nodup
  have hwaiting : waitForExposure "d" 120 (1 / 4) 1 0 0 [benchPoll 0 0] = none :=
    benchPoll_waits (by norm_num) (by norm_num) (by norm_num)
  have hreturned : waitForExposure "d" 120 (1 / 4) 1 0 0 ([benchPoll 0 0] ++ [benchPoll 1 1]) =
      some (.ok (sortedPaths (oneDirectory "d" benchNames) "d", 0)) :=
    benchPoll_returns (by norm_num) (by norm_num) (by norm_num) (le_refl _)
  obtain ⟨earlier, opening, rest, hwindow, hat, hsettled, hwatched⟩ :=
    watched_is_returned hwaiting hreturned
  have hbench : ∀ p ∈ opening :: (rest ++ [benchPoll 1 1]), ∃ a b, p = benchPoll a b := by
    intro p hp
    have hmem : p ∈ [benchPoll 0 0] ++ [benchPoll 1 1] := by
      rw [hwindow.split]
      exact List.mem_append_right _ hp
    rcases List.mem_pair.mp hmem with rfl | rfl
    · exact ⟨0, 0, rfl⟩
    · exact ⟨1, 1, rfl⟩
  have hfinds : ∀ p ∈ opening :: (rest ++ [benchPoll 1 1]), ∀ path,
      p.Finds "d" path ↔ path ∈ benchNames.map (PyText.joinPath "d") := by
    intro p hp path
    obtain ⟨a, b, rfl⟩ := hbench p hp
    exact benchPoll_finds
  have hopening := hfinds opening (List.mem_cons_self ..)
  refine ⟨earlier, opening, rest, hwindow, hat, hsettled, (hwatched ?_).mpr ?_⟩
  · rintro ⟨p, hp, path, path', hpath, hpath', hne, hsensor⟩
    exact hne (List.inj_on_of_nodup_map hnodup ((hfinds p hp path).mp hpath)
      ((hfinds p hp path').mp hpath') hsensor)
  · rintro (⟨path, hpath, hfirst⟩ | ⟨path, p, hfirst, hp, hlost⟩ | ⟨path, hfirst, hgone⟩ |
      ⟨path, hfirst, hforeign⟩ | hdoubled)
    · exact hfirst ((hopening path).mpr (hfound ▸ hpath))
    · exact hlost ((hfinds p hp path).mpr ((hopening path).mp hfirst))
    · exact hgone (hfound.symm ▸ (hopening path).mp hfirst)
    · refine hforeign ?_
      rw [← hsensors]
      exact List.mem_map_of_mem ((hopening path).mp hfirst)
    · exact hdoubled (hfound.symm ▸ hnodup)

/-- The eight files, and one more without a sidecar. -/
def strayPoll (time : ℚ) : Poll :=
  { benchPoll time time with
    tree := oneDirectory "d" ("b_R00_SW0.fits" :: benchNames)
    getsize := fun _ => some ⟨512, time⟩
    again := oneDirectory "d" ("b_R00_SW0.fits" :: benchNames) }

/-- **A file nobody watched.**  It never had its sidecar, no poll has counted it, and it is
returned with the other eight. -/
theorem stray_is_returned :
    waitForExposure "d" 120 (1 / 4) 1 0 0 [strayPoll 0] = none ∧
      waitForExposure "d" 120 (1 / 4) 1 0 0 ([strayPoll 0] ++ [strayPoll 1]) =
        some (.ok (sortedPaths (strayPoll 1).again "d", 0)) ∧
      "d/b_R00_SW0.fits" ∈ sortedPaths (strayPoll 1).again "d" ∧
      ∀ window, ¬ Watched "d" window (sortedPaths (strayPoll 1).again "d") := by
  refine ⟨by decide +kernel, by decide +kernel, by decide +kernel, fun window h => ?_⟩
  have hnine : (sortedPaths (strayPoll 1).again "d").length = 9 := by decide +kernel
  have height := h.1.length_eq
  rw [List.length_map, hnine] at height
  exact absurd height (by decide)

end DonutServer.Trigger
