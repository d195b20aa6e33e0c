/-
The files of a stamp directory, and what a scan of it makes of them.

A job's result table, its two selection tables and its plots stand side by side, and only
the names tell them apart.
-/
import Mathlib.Data.String.Basic
import Mathlib.Data.Prod.Lex
import DonutServer.Commands
import DonutServer.Lib.Greatest
import DonutServer.Lib.PyText

namespace DonutServer

open PyText

/-- `PLOT_TABLES`: the results that go to a table of their own, and the ending of its name. -/
def plotTables : List (String × String) :=
  [("detectorImages", "detector_images"), ("selectionOverlays", "selection_overlays")]

/-- `_SELECTION_KINDS`. -/
def selectionKinds : List String := ["detector_images", "selection_overlays"]

example : plotTables.map Prod.snd = selectionKinds := rfl

/-- The name of a job's result table. -/
def stampName (jobId : JobId) : String := jobId ++ ".parquet"

/-- The name of a job's selection table. -/
def selectionName (jobId : JobId) (kind : String) : String := jobId ++ ("." ++ kind) ++ ".parquet"

/-- `_plot_path`, in a directory that is set. -/
def plotPath (directory : String) (jobId : JobId) (name size : String) : String :=
  PyText.joinPath (PyText.joinPath (PyText.joinPath directory "plots") jobId)
    (name ++ "." ++ size ++ ".png")

/-! ### Scanning

A scan looks at the names of a directory's entries and at when they were last changed, and opens
none.  The newest come first, and no more of them are kept than were asked for.
-/

/-- What a scan is told of an entry.  `mtime` is the time of its last change as `st_mtime` gives it,
a double: the number stands for the double's place in the order of the doubles, which is all that a
scan asks of it.  It does not count nanoseconds, and two entries whose nanoseconds differ tie here
where their doubles are the same. -/
structure DirEntry where
  name : String
  isFile : Bool
  mtime : Int
  deriving DecidableEq

/-- A job and when its table was written: the later one is the greater, and of two of one time
the one whose name is. -/
abbrev Candidate := Int ×ₗ JobId

/-- The job that an entry is the result table of. -/
def candidate (e : DirEntry) : Option Candidate :=
  if !e.isFile || !endsWith e.name ".parquet" then none
  else
    let jobId := dropSuffix e.name ".parquet"
    if selectionKinds.any fun kind => endsWith jobId ("." ++ kind) then none
    else some (toLex (e.mtime, jobId))

/-- `JOBS_PAGE_MAX`. -/
def jobsPageMax : Nat := 500

/-- `max(1, min(JOBS_PAGE_MAX, limit))`. -/
def clampJobs (limit : Int) : Nat := (max 1 (min (jobsPageMax : Int) limit)).toNat

structure HttpException where
  status : Nat
  detail : String
  deriving DecidableEq

/-- What the scan reads: `DONUT_SERVER_STAMP_DIR`, `os.scandir` of a directory, or why it
cannot be scanned, and `os.path.exists`.  A directory lists each name once. -/
structure Disk where
  stampDir : Option String
  scandir : String → Except String (List DirEntry)
  pathExists : String → Bool
  names : ∀ directory entries, scandir directory = .ok entries → (entries.map (·.name)).Nodup

/-- The donut plot of a job was drawn. -/
def Disk.hasPlot (disk : Disk) (directory : String) (jobId : JobId) : Bool :=
  disk.pathExists (plotPath directory jobId "donut" "full")

/-- `_scan_for_missing_plots`. -/
def Disk.scan (disk : Disk) (limit : Nat) : Except HttpException (Nat × List JobId) :=
  let unset := ⟨409, "DONUT_SERVER_STAMP_DIR is not set; nothing to scan"⟩
  match disk.stampDir with
  | none => .error unset
  | some directory =>
      if directory = "" then .error unset
      else
        match disk.scandir directory with
        | .error exc => .error ⟨409, s!"cannot scan {directory}: {exc}"⟩
        | .ok entries =>
            let candidates := (entries.filterMap candidate).insertionSort (· ≥ ·)
            let missing := ((candidates.take limit).map fun c => (ofLex c).2).filter fun jobId =>
              !disk.hasPlot directory jobId
            .ok (candidates.length, missing)

/-! ### What is scanned

A selection table's name ends as a result table's does, with more before the ending.  So a job's
table is told from another's selection by the name alone, and what a scan examines are the jobs
that have a result table.
-/

/-- A result table, and no selection table. -/
def HasTable (entries : List DirEntry) (c : Candidate) : Prop :=
  ∃ e ∈ entries, e.isFile = true ∧ e.mtime = (ofLex c).1 ∧ e.name = stampName (ofLex c).2 ∧
    ∀ jobId, ∀ kind ∈ plotTables.map Prod.snd, e.name ≠ selectionName jobId kind

/-- The jobs whose tables are the newest, so many of them. -/
def Newest (entries : List DirEntry) (limit : Nat) (examined : List Candidate) : Prop :=
  Greatest limit (HasTable entries) examined

variable {entries : List DirEntry} {e : DirEntry} {c : Candidate} {disk : Disk} {directory : String}

/-- A result table's name is one of a selection table just when its job's id ends like one. -/
theorem selectionName_iff {jobId : JobId} :
    (selectionKinds.any fun kind => endsWith jobId ("." ++ kind)) = true ↔
      ∃ other, ∃ kind ∈ plotTables.map Prod.snd, stampName jobId = selectionName other kind := by
  rw [List.any_eq_true]
  constructor
  · intro h
    obtain ⟨kind, hkind, hend⟩ := h
    obtain ⟨other, rfl⟩ := endsWith_iff.mp hend
    exact ⟨other, kind, hkind, rfl⟩
  · intro h
    obtain ⟨other, kind, hkind, hname⟩ := h
    exact ⟨kind, hkind, endsWith_iff.mpr ⟨other, (String.append_left_inj ".parquet").mp hname⟩⟩

theorem candidate_eq : candidate e = some c ↔
    e.isFile = true ∧ e.mtime = (ofLex c).1 ∧ e.name = stampName (ofLex c).2 ∧
      ∀ jobId, ∀ kind ∈ plotTables.map Prod.snd, e.name ≠ selectionName jobId kind := by
  unfold candidate
  constructor
  · intro h
    split at h
    next => cases h
    next htable =>
      rw [Bool.or_eq_true, not_or, Bool.not_eq_true', Bool.not_eq_true', Bool.not_eq_false,
        Bool.not_eq_false] at htable
      obtain ⟨stem, hstem⟩ := endsWith_iff.mp htable.2
      dsimp only at h
      rw [hstem, dropSuffix_append] at h
      split at h
      next => cases h
      next hselection =>
        cases h
        refine ⟨htable.1, rfl, hstem, fun jobId kind hkind hname => hselection ?_⟩
        exact selectionName_iff.mpr ⟨jobId, kind, hkind, hstem.symm.trans hname⟩
  · intro h
    obtain ⟨hfile, hmtime, hname, hselection⟩ := h
    have hend : endsWith e.name ".parquet" = true := endsWith_iff.mpr ⟨_, hname⟩
    rw [if_neg (by rw [hfile, hend]; decide)]
    have hstem : dropSuffix e.name ".parquet" = (ofLex c).2 := by
      rw [hname]
      exact dropSuffix_append _ _
    dsimp only
    rw [hstem, if_neg ?_, hmtime]
    · rfl
    · intro hany
      obtain ⟨jobId, kind, hkind, heq⟩ := selectionName_iff.mp hany
      exact hselection jobId kind hkind (hname.trans heq)

/-- The candidates are the jobs with a result table. -/
theorem mem_candidates : c ∈ entries.filterMap candidate ↔ HasTable entries c := by
  rw [List.mem_filterMap]
  exact exists_congr fun e => and_congr_right fun _ => candidate_eq

/-- No two candidates are of one job. -/
theorem candidates_nodup (h : (entries.map (·.name)).Nodup) :
    ((entries.filterMap candidate).map fun c => (ofLex c).2).Nodup := by
  induction entries with
  | nil => exact List.nodup_nil
  | cons e entries ih =>
      obtain ⟨hfirst, hrest⟩ := List.nodup_cons.mp h
      rw [List.filterMap_cons]
      split
      next => exact ih hrest
      next c hc =>
        refine List.nodup_cons.mpr ⟨fun hmem => hfirst ?_, ih hrest⟩
        obtain ⟨d, hd, heq⟩ := List.mem_map.mp hmem
        obtain ⟨other, hother, hcandidate⟩ := List.mem_filterMap.mp hd
        refine List.mem_map.mpr ⟨other, hother, ?_⟩
        show other.name = e.name
        have heq : (ofLex d).2 = (ofLex c).2 := heq
        rw [(candidate_eq.mp hcandidate).2.2.1, (candidate_eq.mp hc).2.2.1, heq]

/-- A scan examines the jobs with the newest tables, and reports those with no plot. -/
theorem scan_eq {entries : List DirEntry} (hset : disk.stampDir = some directory)
    (hdir : directory ≠ "") (hscan : disk.scandir directory = .ok entries) (limit : Nat) :
    ∃ scanned examined, Newest entries limit examined ∧
      (examined.map fun c => (ofLex c).2).Nodup ∧
      disk.scan limit = .ok (scanned, (examined.map fun c => (ofLex c).2).filter fun jobId =>
        !disk.hasPlot directory jobId) := by
  have hjobs := candidates_nodup (disk.names directory entries hscan)
  refine ⟨((entries.filterMap candidate).insertionSort (· ≥ ·)).length, _,
    (Greatest.take_insertionSort (List.Nodup.of_map _ hjobs) limit).congr fun c => mem_candidates,
    ?_, ?_⟩
  · have hperm := (entries.filterMap candidate).perm_insertionSort (· ≥ ·)
    exact ((hperm.map _).nodup_iff.mpr hjobs).sublist ((List.take_sublist limit _).map _)
  · unfold Disk.scan
    dsimp only
    rw [hset]
    dsimp only
    rw [if_neg hdir, hscan]

end DonutServer
