/-
The manifest of a job's plots, and the route that serves them.

The page polls the manifest and fetches what it lists.  Its state is put together of the queue,
the table of errors and the disk, in that order, so a redraw that failed is told before the
figures of an earlier draw.  Both routes look for a figure under the same path, which is made
of a name and a size out of closed lists and of an id that has no separator in it.
-/
import DonutServer.Plots.Backfill
import DonutServer.Plots.Errors
import DonutServer.Server.State

namespace DonutServer

open Function

/-- `PLOT_NAMES`. -/
def plotNames : List String := ["donut", "wavefront", "selection"]

/-- `PLOT_SIZES`. -/
def plotSizes : List String := ["full", "thumb"]

/-- What `os.stat` tells of a file. -/
structure FileStat where
  size : Nat
  mtime : Int
  deriving DecidableEq

/-- What the routes read: `DONUT_SERVER_STAMP_DIR`, and `os.stat` of the files there are. -/
structure PlotShelf where
  stampDir : Option String
  stat : String → Option FileStat

/-- `_plot_path`. -/
def PlotShelf.path (jobId : JobId) (name size : String) (shelf : PlotShelf) : Option String :=
  match shelf.stampDir with
  | none => none
  | some directory => if directory = "" then none else some (plotPath directory jobId name size)

/-- The figure that is there, and its path. -/
def PlotShelf.find (jobId : JobId) (name size : String) (shelf : PlotShelf) :
    Option (String × FileStat) := do
  let path ← shelf.path jobId name size
  let stat ← shelf.stat path
  pure (path, stat)

/-- What the manifest says of one file. -/
structure PlotFile where
  bytes : Nat
  mtime : Int
  url : String
  deriving DecidableEq

structure Manifest where
  jobId : JobId
  state : String
  error : Option String
  figures : OrderedDict String (OrderedDict String PlotFile)
  queueDepth : Nat
  nPlotFlights : Nat
  jobState : Option JobState

/-- The sizes of one figure that are there. -/
def PlotShelf.sizes (jobId : JobId) (name : String) (shelf : PlotShelf) :
    OrderedDict String PlotFile :=
  .collect (fun size => (shelf.find jobId name size).map fun found =>
    ⟨found.2.size, found.2.mtime, s!"/result/{jobId}/plot/{name}?size={size}"⟩) plotSizes

/-- The figures of a job of which some size is there. -/
def PlotShelf.figures (jobId : JobId) (shelf : PlotShelf) :
    OrderedDict String (OrderedDict String PlotFile) :=
  .collect (fun name =>
    let sizes := shelf.sizes jobId name
    if sizes.entries = [] then none else some sizes) plotNames

/-- The state a manifest reports. -/
def manifestState (queueState error : Option String)
    (figures : OrderedDict String (OrderedDict String PlotFile)) : String :=
  match queueState, error with
  | some state, _ => state
  | none, some _ => "error"
  | none, none => if figures.entries = [] then "absent" else "ready"

namespace PlotQueue

/-- `result_plots`. -/
def resultPlots (shelf : PlotShelf) (jobId : JobId) (jobState : Option JobState) (q : PlotQueue) :
    Except HttpException Manifest :=
  if jobIdOk jobId then
    let figures := shelf.figures jobId
    .ok
      { jobId := jobId
        state := manifestState (q.stateOf jobId) (q.errors.get? jobId) figures
        error := q.errors.get? jobId
        figures := figures
        queueDepth := q.stack.length
        nPlotFlights := q.flights
        jobState := jobState }
  else .error ⟨400, "malformed job id"⟩

end PlotQueue

/-- `result_plot`: the file it serves. -/
def PlotShelf.resultPlot (jobId : JobId) (name size : String) (shelf : PlotShelf) :
    Except HttpException String :=
  if name ∉ plotNames then
    .error ⟨400, s!"unknown plot {PyText.reprText name}; " ++
      s!"expected one of {PyText.reprList plotNames}"⟩
  else if size ∉ plotSizes then
    .error ⟨400, s!"unknown size {PyText.reprText size}; " ++
      s!"expected one of {PyText.reprList plotSizes}"⟩
  else if PlotQueue.jobIdOk jobId then
    match shelf.find jobId name size with
    | none => .error ⟨409, s!"no {name} plot for job {jobId} yet"⟩
    | some (path, _) => .ok path
  else .error ⟨400, "malformed job id"⟩

/-- What `admin_plot_job` answers. -/
structure PlotJobReply where
  jobId : JobId
  queued : Bool
  state : Option String
  queueDepth : Nat

/-- `admin_plot_job`. -/
def PlotPool.plotJob (jobId : JobId) (p : PlotPool) :
    Except HttpException (PlotJobReply × PlotPool) :=
  if PlotQueue.jobIdOk jobId then
    if p.queue.flights = 0 then
      .error ⟨409, "no plot flights are running; start the server with " ++
        "--num-plot-flights 1 or more"⟩
    else
      let queued := (p.queue.enqueue jobId).2
      let p := p.enqueue jobId
      .ok (⟨jobId, queued, p.queue.stateOf jobId, p.queue.stack.length⟩, p)
  else .error ⟨400, "malformed job id"⟩

variable {shelf : PlotShelf} {jobId jobId' : JobId} {name name' size size' path directory : String}
  {q : PlotQueue} {jobState : Option JobState} {m : Manifest} {stat : FileStat}

/-! ### What is listed is what is served

Both routes go by the same path and the same `os.stat`, so what the one lists the other serves;
what has to be shown is that no file is listed by another figure's entry.
-/

/-- A figure that is found is there, under its own path. -/
theorem find_eq_some : shelf.find jobId name size = some (path, stat) ↔
    shelf.path jobId name size = some path ∧ shelf.stat path = some stat := by
  unfold PlotShelf.find
  constructor
  · intro h
    obtain ⟨found, hfound, h⟩ := Option.bind_eq_some_iff.mp h
    obtain ⟨told, htold, h⟩ := Option.bind_eq_some_iff.mp h
    obtain ⟨rfl, rfl⟩ := Prod.mk.inj (Option.some.inj h)
    exact ⟨hfound, htold⟩
  · intro h
    rw [h.1]
    show ((shelf.stat path).bind fun stat => some (path, stat)) = _
    rw [h.2]
    rfl

/-- The manifest lists the file. -/
def Manifest.Lists (m : Manifest) (name size : String) (file : PlotFile) : Prop :=
  ∃ sizes, m.figures.get? name = some sizes ∧ sizes.get? size = some file

/-- What the manifest says of a file that is there. -/
def PlotFile.ofStat (jobId : JobId) (name size : String) (stat : FileStat) : PlotFile :=
  ⟨stat.size, stat.mtime, s!"/result/{jobId}/plot/{name}?size={size}"⟩

/-- A size is listed where its file is there. -/
theorem sizes_get? : (shelf.sizes jobId name).get? size =
    if size ∈ plotSizes then
      (shelf.find jobId name size).map fun found => PlotFile.ofStat jobId name size found.2
    else none :=
  OrderedDict.get?_collect _ _ _

/-- And a figure where one of its sizes is. -/
theorem figures_get? : (shelf.figures jobId).get? name =
    if name ∈ plotNames then
      if (shelf.sizes jobId name).entries = [] then none else some (shelf.sizes jobId name)
    else none :=
  OrderedDict.get?_collect _ _ _

theorem resultPlots_ok (hok : q.resultPlots shelf jobId jobState = .ok m) :
    PlotQueue.jobIdOk jobId = true ∧ m.figures = shelf.figures jobId ∧
      m.error = q.errors.get? jobId ∧
      m.state = manifestState (q.stateOf jobId) (q.errors.get? jobId) (shelf.figures jobId) := by
  unfold PlotQueue.resultPlots at hok
  split at hok
  next hid =>
    obtain rfl := Except.ok.inj hok
    exact ⟨hid, rfl, rfl, rfl⟩
  next => exact absurd hok (by simp)

/-- So a file is listed exactly where it is there, with what `os.stat` says of it. -/
theorem lists_iff (hok : q.resultPlots shelf jobId jobState = .ok m) {file : PlotFile} :
    m.Lists name size file ↔ name ∈ plotNames ∧ size ∈ plotSizes ∧
      ∃ path stat, shelf.find jobId name size = some (path, stat) ∧
        file = .ofStat jobId name size stat := by
  unfold Manifest.Lists
  rw [(resultPlots_ok hok).2.1, figures_get?]
  constructor
  · intro h
    obtain ⟨sizes, hsizes, hfile⟩ := h
    by_cases hname : name ∈ plotNames
    · rw [if_pos hname] at hsizes
      split at hsizes
      next => exact absurd hsizes (by simp)
      next =>
        obtain rfl := Option.some.inj hsizes
        rw [sizes_get?] at hfile
        by_cases hsize : size ∈ plotSizes
        · rw [if_pos hsize] at hfile
          obtain ⟨⟨path, stat⟩, hfind, rfl⟩ := Option.map_eq_some_iff.mp hfile
          exact ⟨hname, hsize, path, stat, hfind, rfl⟩
        · rw [if_neg hsize] at hfile
          exact absurd hfile (by simp)
    · rw [if_neg hname] at hsizes
      exact absurd hsizes (by simp)
  · intro h
    obtain ⟨hname, hsize, path, stat, hfind, rfl⟩ := h
    have hget : (shelf.sizes jobId name).get? size = some (.ofStat jobId name size stat) := by
      rw [sizes_get?, if_pos hsize, hfind]
      rfl
    refine ⟨shelf.sizes jobId name, ?_, hget⟩
    rw [if_pos hname, if_neg]
    intro hempty
    exact absurd (hget.symm.trans (OrderedDict.entries_eq_nil.mp hempty size)) (by simp)

/-- And it is served exactly there. -/
theorem resultPlot_ok : shelf.resultPlot jobId name size = .ok path ↔
    name ∈ plotNames ∧ size ∈ plotSizes ∧ PlotQueue.jobIdOk jobId = true ∧
      ∃ stat, shelf.find jobId name size = some (path, stat) := by
  unfold PlotShelf.resultPlot
  constructor
  · intro h
    split at h
    next => exact absurd h (by simp)
    next hname =>
      split at h
      next => exact absurd h (by simp)
      next hsize =>
        split at h
        next hid =>
          split at h
          next => exact absurd h (by simp)
          next found stat hfind =>
            obtain rfl := Except.ok.inj h
            exact ⟨not_not.mp hname, not_not.mp hsize, hid, stat, hfind⟩
        next => exact absurd h (by simp)
  · intro h
    obtain ⟨hname, hsize, hid, stat, hfind⟩ := h
    rw [if_neg (not_not.mpr hname), if_neg (not_not.mpr hsize), if_pos hid, hfind]

/-! ### Where a figure is looked for

The id comes from the path of a request and the name and the size from its query, so that none of
them may lead anywhere else.  The names and sizes are out of closed lists, and an id has no
separator in it, nor is it one of the names that stand for a directory.
-/

/-- An id that the routes take has no separator in it, and something else. -/
theorem jobIdOk_plain (h : PlotQueue.jobIdOk jobId = true) :
    jobId.toList ≠ [] ∧ '/' ∉ jobId.toList ∧ '.' ∉ jobId.toList := by
  unfold PlotQueue.jobIdOk at h
  simp only [Bool.and_eq_true, decide_eq_true_eq] at h
  obtain ⟨⟨hlength, -⟩, hall⟩ := h
  have hbad : ∀ c, c ∈ jobId.toList → c ≠ '/' ∧ c ≠ '.' := by
    intro c hc
    have hok := List.all_eq_true.mp hall c hc
    constructor <;> rintro rfl <;> exact absurd hok (by decide)
  refine ⟨fun hnil => ?_, fun hmem => (hbad _ hmem).1 rfl, fun hmem => (hbad _ hmem).2 rfl⟩
  rw [← String.length_toList, hnil] at hlength
  exact absurd hlength (by decide)

/-- A name that does not lead out of the directory goes to its end. -/
theorem joinPath_eq (hname : name.toList.head? ≠ some '/') :
    PyText.joinPath directory name = PyText.joinPath directory "" ++ name := by
  unfold PyText.joinPath
  rw [if_neg hname, if_neg (show ¬ "".toList.head? = some '/' by decide)]
  split
  · rw [String.append_empty]
  · rw [String.append_empty]

/-- A name goes behind a separator where the directory does not end in one. -/
theorem joinPath_separated (hname : name.toList.head? ≠ some '/')
    (hlast : ∃ c, directory.toList.getLast? = some c ∧ c ≠ '/') :
    PyText.joinPath directory name = directory ++ "/" ++ name := by
  obtain ⟨c, hc, hne⟩ := hlast
  unfold PyText.joinPath
  rw [if_neg hname, if_neg]
  intro h
  rcases h with rfl | hslash
  · exact absurd hc (by simp)
  · exact hne (Option.some.inj (hc.symm.trans hslash))

/-- A job's figures stand in a directory of its own, under the one directory that is set. -/
theorem plotPath_eq (hid : PlotQueue.jobIdOk jobId = true) (hname : name ∈ plotNames) :
    plotPath directory jobId name size = PyText.joinPath directory "" ++ ("plots/" ++
      (jobId ++ ("/" ++ (name ++ "." ++ size ++ ".png")))) := by
  obtain ⟨hne, hslash, -⟩ := jobIdOk_plain hid
  have hfile : (name ++ "." ++ size ++ ".png").toList.head? ≠ some '/' := by
    have hhead : ∀ n ∈ plotNames, n.toList ≠ [] ∧ n.toList.head? ≠ some '/' := by decide
    obtain ⟨hn, hfirst⟩ := hhead name hname
    rw [String.toList_append, String.toList_append, String.toList_append, List.append_assoc,
      List.append_assoc, List.head?_append_of_ne_nil _ hn]
    exact hfirst
  have hjob : jobId.toList.head? ≠ some '/' := fun h => hslash (List.mem_of_head? h)
  have hlast : ∃ c, jobId.toList.getLast? = some c ∧ c ≠ '/' := by
    refine ⟨jobId.toList.getLast hne, List.getLast?_eq_some_getLast hne, fun heq => hslash ?_⟩
    rw [← heq]
    exact List.getLast_mem hne
  unfold plotPath
  rw [joinPath_eq (show "plots".toList.head? ≠ some '/' by decide), joinPath_separated hjob,
    joinPath_separated hfile]
  · simp only [String.append_assoc]
    rfl
  · obtain ⟨c, hc, hcne⟩ := hlast
    refine ⟨c, ?_, hcne⟩
    rw [String.toList_append, List.getLast?_append, hc]
    rfl
  · refine ⟨'s', ?_, by decide⟩
    rw [String.toList_append, List.getLast?_append]
    rfl

/-- Up to a separator that neither front has, two texts with one in them agree. -/
theorem append_separated {front front' back back' : String} (h : '/' ∉ front.toList)
    (h' : '/' ∉ front'.toList) (heq : front ++ ("/" ++ back) = front' ++ ("/" ++ back')) :
    front = front' ∧ back = back' := by
  have hlist : front.toList ++ '/' :: back.toList = front'.toList ++ '/' :: back'.toList := by
    simpa using congrArg String.toList heq
  have hstem : ∀ {l rest : List Char}, '/' ∉ l → (l ++ '/' :: rest).takeWhile (· ≠ '/') = l := by
    intro l rest hl
    have hfront : ∀ c ∈ l, decide (c ≠ '/') = true := by
      intro c hc
      rw [decide_eq_true_eq]
      rintro rfl
      exact hl hc
    rw [List.takeWhile_append_of_pos hfront]
    simp
  have hfront : front = front' := by
    refine String.toList_inj.mp ?_
    rw [← hstem h, hlist, hstem h']
  subst hfront
  exact ⟨rfl, (String.append_right_inj _).mp ((String.append_right_inj _).mp heq)⟩

/-- No two figures are looked for in one place. -/
theorem plotPath_inj (hid : PlotQueue.jobIdOk jobId = true) (hid' : PlotQueue.jobIdOk jobId' = true)
    (hname : name ∈ plotNames) (hname' : name' ∈ plotNames) (hsize : size ∈ plotSizes)
    (hsize' : size' ∈ plotSizes)
    (h : plotPath directory jobId name size = plotPath directory jobId' name' size') :
    jobId = jobId' ∧ name = name' ∧ size = size' := by
  rw [plotPath_eq hid hname, plotPath_eq hid' hname'] at h
  obtain ⟨hjob, hfile⟩ := append_separated (jobIdOk_plain hid).2.1 (jobIdOk_plain hid').2.1
    ((String.append_right_inj _).mp ((String.append_right_inj _).mp h))
  have hinj : ∀ n ∈ plotNames, ∀ n' ∈ plotNames, ∀ s ∈ plotSizes, ∀ s' ∈ plotSizes,
      n ++ "." ++ s ++ ".png" = n' ++ "." ++ s' ++ ".png" → n = n' ∧ s = s' := by decide
  exact ⟨hjob, hinj name hname name' hname' size hsize size' hsize' hfile⟩

/-- **The manifest and the figures it lists.**  Whatever is on the disk and in the queue: a
manifest lists a figure exactly if the route for it serves one, with the size and the time of
the very file that is served; that file stands under the directory `plots` of the one that is
set, in the job's own directory; and no two ids, names or sizes are served one file. -/
theorem manifest_lists_served (hok : q.resultPlots shelf jobId jobState = .ok m) :
    (∀ name size file, m.Lists name size file ↔ ∃ path stat,
      shelf.resultPlot jobId name size = .ok path ∧ shelf.stat path = some stat ∧
        file = .ofStat jobId name size stat) ∧
    (∀ name size path, shelf.resultPlot jobId name size = .ok path →
      ∃ directory, shelf.stampDir = some directory ∧ path = PyText.joinPath directory "" ++
        ("plots/" ++ (jobId ++ ("/" ++ (name ++ "." ++ size ++ ".png")))) ∧
        '/' ∉ jobId.toList ∧ '.' ∉ jobId.toList) ∧
    ∀ name size jobId' name' size' path, shelf.resultPlot jobId name size = .ok path →
      shelf.resultPlot jobId' name' size' = .ok path →
        (jobId, name, size) = (jobId', name', size') := by
  have hid := (resultPlots_ok hok).1
  have hfound : ∀ {job name size path}, shelf.resultPlot job name size = .ok path →
      ∃ directory, shelf.stampDir = some directory ∧ path = plotPath directory job name size := by
    intro job name size path hserved
    obtain ⟨-, -, -, stat, hfind⟩ := resultPlot_ok.mp hserved
    have hpath := (find_eq_some.mp hfind).1
    unfold PlotShelf.path at hpath
    split at hpath
    next => exact absurd hpath (by simp)
    next directory hset =>
      split at hpath
      next => exact absurd hpath (by simp)
      next => exact ⟨directory, hset, (Option.some.inj hpath).symm⟩
  refine ⟨fun name size file => ?_, fun name size path hserved => ?_,
    fun name size jobId' name' size' path hserved hserved' => ?_⟩
  · rw [lists_iff hok]
    constructor
    · intro h
      obtain ⟨hname, hsize, path, stat, hfind, hfile⟩ := h
      exact ⟨path, stat, resultPlot_ok.mpr ⟨hname, hsize, hid, stat, hfind⟩,
        (find_eq_some.mp hfind).2, hfile⟩
    · intro h
      obtain ⟨path, stat, hserved, hstat, hfile⟩ := h
      obtain ⟨hname, hsize, -, stat', hfind⟩ := resultPlot_ok.mp hserved
      obtain rfl := Option.some.inj (hstat.symm.trans (find_eq_some.mp hfind).2)
      exact ⟨hname, hsize, path, stat, hfind, hfile⟩
  · obtain ⟨directory, hset, rfl⟩ := hfound hserved
    obtain ⟨-, hslash, hdot⟩ := jobIdOk_plain hid
    exact ⟨directory, hset, plotPath_eq hid (resultPlot_ok.mp hserved).1, hslash, hdot⟩
  · obtain ⟨directory, hset, rfl⟩ := hfound hserved
    obtain ⟨directory', hset', hpath⟩ := hfound hserved'
    obtain rfl := Option.some.inj (hset.symm.trans hset')
    obtain ⟨hname, hsize, -⟩ := resultPlot_ok.mp hserved
    obtain ⟨hname', hsize', hid', -⟩ := resultPlot_ok.mp hserved'
    obtain ⟨rfl, rfl, rfl⟩ := plotPath_inj hid hid' hname hname' hsize hsize' hpath
    rfl

/-- One figure of one job is there. -/
def benchShelf : PlotShelf where
  stampDir := some "/stamps"
  stat := fun path => if path = "/stamps/plots/job/donut.full.png" then some ⟨10, 5⟩ else none

/-- It is listed because it is served. -/
theorem manifest_lists_served_job : ∃ m,
    (PlotQueue.started 1).resultPlots benchShelf "job" none = .ok m ∧
      m.Lists "donut" "full" ⟨10, 5, "/result/job/plot/donut?size=full"⟩ := by
  obtain ⟨m, hm⟩ : ∃ m, (PlotQueue.started 1).resultPlots benchShelf "job" none = .ok m := ⟨_, rfl⟩
  exact ⟨m, hm, ((manifest_lists_served hm).1 _ _ _).mpr
    ⟨"/stamps/plots/job/donut.full.png", ⟨10, 5⟩, rfl, rfl, rfl⟩⟩

/-! ### What the state says

The state is put together of three things that are read one after another, and says one thing of
the job.  What it says is compared with the queue's loops, which is where a job really is drawn;
the one place where the two part is the pause after a job was given up.
-/

namespace PlotPool

variable {p : PlotPool} {log : List (JobId × PlotOutcome)}

/-- The job waits, or a command for it is out. -/
def Pending (p : PlotPool) (jobId : JobId) : Prop :=
  jobId ∈ p.queue.stack ∨ ∃ i, p.Sends i jobId

/-- A job that does not wait and has no command out. -/
theorem not_pending : ¬ p.Pending jobId ↔ jobId ∉ p.queue.stack ∧ ∀ i, ¬ p.Sends i jobId := by
  unfold Pending
  rw [not_or, not_exists]

/-- What the queue says of a job that it knows. -/
theorem stateOf_cases {state : String} (h : p.queue.stateOf jobId = some state) :
    state = "queued" ∨ state = "drawing" := by
  unfold PlotQueue.stateOf at h
  split at h
  next => exact Or.inr (Option.some.inj h).symm
  next =>
    split at h
    next => exact Or.inl (Option.some.inj h).symm
    next => exact absurd h (by simp)

/-- A job that the queue knows is not queued again; of any other the queue has one more, and tells
it from then on. -/
theorem enqueue_told (jobId : JobId) (hflights : p.queue.flights ≠ 0) :
    ((p.queue.enqueue jobId).2 = true ↔ p.queue.stateOf jobId = none) ∧
      (p.enqueue jobId).queue.stateOf jobId ≠ none ∧
      (p.enqueue jobId).queue.stack =
        if (p.queue.enqueue jobId).2 then jobId :: p.queue.stack else p.queue.stack := by
  unfold enqueue PlotQueue.enqueue PlotQueue.stateOf
  rw [if_neg hflights]
  by_cases hknown : jobId ∈ p.queue.queued ∨ p.queue.isDrawing jobId = true
  · rw [if_pos hknown]
    rcases hknown with hqueued | hdrawing
    · by_cases hdrawing : p.queue.isDrawing jobId = true <;> simp [hqueued, hdrawing]
    · simp [hdrawing]
  · rw [if_neg hknown]
    obtain ⟨hqueued, hdrawing⟩ := not_or.mp hknown
    refine ⟨by simp [hqueued, hdrawing], ?_, by simp⟩
    rw [if_pos rfl]
    dsimp only
    rw [if_pos (Finset.mem_insert_self _ _)]
    split <;> exact Option.some_ne_none _

/-- **What is answered to a request for one job's plots** is what the queue does about it: a request
that is taken is a step of the queue, the state it reports is one of waiting or being drawn, it
says `queued` exactly of a job that the queue did not know, and the depth counts that job. -/
theorem plotJob_told {reply : PlotJobReply} {p' : PlotPool} (h : p.plotJob jobId = .ok (reply, p')) :
    plotSystem.step p (.enqueue jobId) p' ∧ reply.jobId = jobId ∧
      reply.state = p'.queue.stateOf jobId ∧
      (reply.state = some "queued" ∨ reply.state = some "drawing") ∧
      (reply.queued = true ↔ p.queue.stateOf jobId = none) ∧
      reply.queueDepth = p'.queue.stack.length ∧
      p'.queue.stack = if reply.queued then jobId :: p.queue.stack else p.queue.stack := by
  unfold plotJob at h
  split at h
  next =>
    split at h
    next => exact absurd h (by simp)
    next hflights =>
      obtain ⟨rfl, rfl⟩ := Prod.mk.inj (Except.ok.inj h)
      obtain ⟨hqueued, htold, hstack⟩ := enqueue_told jobId hflights
      obtain ⟨state, hstate⟩ := Option.ne_none_iff_exists'.mp htold
      refine ⟨rfl, rfl, rfl, ?_, hqueued, rfl, hstack⟩
      rcases stateOf_cases hstate with rfl | rfl
      · exact Or.inl hstate
      · exact Or.inr hstate
  next => exact absurd h (by simp)

/-- Nothing is listed exactly if no file is there. -/
theorem figures_empty : (shelf.figures jobId).entries = [] ↔
    ∀ name ∈ plotNames, ∀ size ∈ plotSizes, shelf.find jobId name size = none := by
  have hsizes : ∀ name, (shelf.sizes jobId name).entries = [] ↔
      ∀ size ∈ plotSizes, shelf.find jobId name size = none := by
    intro name
    rw [OrderedDict.entries_eq_nil]
    refine forall_congr' fun size => ?_
    rw [sizes_get?]
    by_cases hsize : size ∈ plotSizes
    · simp [hsize]
    · simp [hsize]
  rw [OrderedDict.entries_eq_nil]
  refine forall_congr' fun name => ?_
  rw [figures_get?, ← hsizes name]
  by_cases hname : name ∈ plotNames
  · by_cases hempty : (shelf.sizes jobId name).entries = []
    · simp [hname, hempty]
    · simp [hname, hempty]
  · simp [hname]

/-- What each state of a manifest says of the job and of its files. -/
structure Told (shelf : PlotShelf) (jobId : JobId) (log : List (JobId × PlotOutcome))
    (p : PlotPool) (m : Manifest) : Prop where
  pending : p.Pending jobId → m.state = "queued" ∨ m.state = "drawing"
  working : m.state = "queued" ∨ m.state = "drawing" → p.Pending jobId ∨ p.Abandoned jobId
  error : ∀ message, m.error = some message →
    LastEnd log jobId (.failed message) ∧ ¬ p.Pending jobId
  reported : m.state = "error" → m.error ≠ none
  settled : m.state = "ready" ∨ m.state = "absent" → ¬ p.Pending jobId ∧
    ∀ before message after, log = before ++ (jobId, .failed message) :: after →
      jobId ∉ after.map Prod.fst → plotErrorCap ≤ (failing after).card
  ready : m.state = "ready" → ∃ name ∈ plotNames, ∃ size ∈ plotSizes,
    shelf.find jobId name size ≠ none
  absent : m.state = "absent" → ∀ name ∈ plotNames, ∀ size ∈ plotSizes,
    shelf.find jobId name size = none

/-- **The manifest tells the truth.**  In every state of every run: a job that waits or is drawn
is reported so, and one that is reported so waits, is drawn, or was given up by a loop that
still pauses; an error that is shown is the last thing that became of the job; and a job is
reported as having its plots, or none, only if its last draw did not fail, or if
`PLOT_ERROR_CAP` other jobs have failed since.  So a redraw that failed is not taken for the
figures of an earlier one. -/
theorem manifest_truthful (h : Logged log p)
    (hok : p.queue.resultPlots shelf jobId jobState = .ok m) : p.Told shelf jobId log m := by
  have hgood := reach_good h.reach
  have herrors := h.errorsTrue
  obtain ⟨-, -, herror, hstate⟩ := resultPlots_ok hok
  have hfate : p.fate jobId ≠ some [] ↔ ¬ p.Pending jobId := by
    rw [Ne, hgood.fate_open]
    rfl
  have hidle : p.queue.stateOf jobId = none → ¬ p.Pending jobId := fun hnone =>
    not_pending.mpr ((stateOf_idle hgood.shape).mp hnone).1
  have hshown : ∀ message, m.error = some message →
      LastEnd log jobId (.failed message) ∧ ¬ p.Pending jobId := by
    intro message hmessage
    rw [herror] at hmessage
    obtain ⟨hlast, hnot⟩ := herrors.told jobId message (OrderedDict.mem_of_get? hmessage)
    exact ⟨hlast, hfate.mp hnot⟩
  have hforgotten : m.error = none → ¬ p.Pending jobId → ∀ before message after,
      log = before ++ (jobId, .failed message) :: after → jobId ∉ after.map Prod.fst →
        plotErrorCap ≤ (failing after).card := by
    intro hnone hnot before message after hlog hafter
    by_contra hfew
    have hget := (herrors.kept before jobId message after hlog hafter (hfate.mpr hnot)
      (Nat.lt_of_not_le hfew)).get?
    exact absurd (hget.symm.trans (herror.symm.trans hnone)) (by simp)
  unfold manifestState at hstate
  cases hqueue : p.queue.stateOf jobId with
  | some state =>
      rw [hqueue] at hstate
      have hstate : m.state = state := hstate
      have hword := stateOf_cases hqueue
      rw [← hstate] at hword
      refine ⟨fun _ => hword, fun _ => ?_, hshown, ?_, ?_, ?_, ?_⟩
      · by_contra hnone
        rw [not_or, not_pending] at hnone
        exact absurd (hqueue.symm.trans ((stateOf_idle hgood.shape).mpr hnone)) (by simp)
      all_goals rcases hword with hword | hword <;> rw [hword] <;> simp
  | none =>
      rw [hqueue] at hstate
      have hnot := hidle hqueue
      cases hmessage : p.queue.errors.get? jobId with
      | some message =>
          rw [hmessage] at hstate herror
          have hstate : m.state = "error" := hstate
          refine ⟨fun hpending => absurd hpending hnot, ?_, hshown, fun _ => ?_, ?_, ?_, ?_⟩
          · rw [hstate]
            simp
          · rw [herror]
            simp
          all_goals rw [hstate]; simp
      | none =>
          rw [hmessage] at hstate herror
          have hstate : m.state =
              if (shelf.figures jobId).entries = [] then "absent" else "ready" := hstate
          by_cases hempty : (shelf.figures jobId).entries = []
          · rw [if_pos hempty] at hstate
            refine ⟨fun hpending => absurd hpending hnot, ?_, hshown, ?_,
              fun _ => ⟨hnot, hforgotten herror hnot⟩, ?_, fun _ => figures_empty.mp hempty⟩
            all_goals rw [hstate]; simp
          · rw [if_neg hempty] at hstate
            refine ⟨fun hpending => absurd hpending hnot, ?_, hshown, ?_,
              fun _ => ⟨hnot, hforgotten herror hnot⟩, fun _ => ?_, ?_⟩
            · rw [hstate]
              simp
            · rw [hstate]
              simp
            · by_contra hnone
              refine hempty (figures_empty.mpr fun name hname size hsize => ?_)
              by_contra hfind
              exact hnone ⟨name, hname, size, hsize, hfind⟩
            · rw [hstate]
              simp

/-- A redraw has failed, and the figure of an earlier draw is still there. -/
theorem manifest_truthful_redraw : ∃ (p : PlotPool) (m : Manifest),
    p.queue.resultPlots benchShelf "job" none = .ok m ∧
      m.Lists "donut" "full" ⟨10, 5, "/result/job/plot/donut?size=full"⟩ ∧ m.state ≠ "ready" := by
  have hqueued : Logged [] ((started 1).enqueue "job") :=
    (Logged.started 1).step (a := .enqueue "job") rfl
  have hlogged := (hqueued.step (a := .begin 0) rfl).step (a := .sent 0 (.raised "boom")) rfl
  obtain ⟨p, hp⟩ : ∃ p : PlotPool, Logged [("job", .failed "boom")] p := ⟨_, hlogged⟩
  obtain ⟨m, hm⟩ : ∃ m, p.queue.resultPlots benchShelf "job" none = .ok m := ⟨_, rfl⟩
  refine ⟨p, m, hm, ?_, fun hready => ?_⟩
  · exact (lists_iff hm).mpr
      ⟨by decide, by decide, "/stamps/plots/job/donut.full.png", ⟨10, 5⟩, rfl, rfl⟩
  · have hmany := ((manifest_truthful hp hm).settled (Or.inl hready)).2 [] "boom" [] rfl
      List.not_mem_nil
    exact absurd hmany (by decide)

end PlotPool

end DonutServer
