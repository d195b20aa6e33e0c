/-
The stamp directory, and those who write in it.

A coordinator writes the tables of a run once its reply is out, and the child of a plot flight
reads them back and saves the figures it has drawn.  Neither tells the other when a file is
there: a path that exists is taken for a whole file.  Each may be killed at any moment, and a
file may be taken away, so what holds of the files has to hold between any two steps.

What parquet makes of a table, what the plot task draws and what a figure is saved as come from
elsewhere, and are a `Studio` here.
-/
import DonutServer.Coordinator.OwnWrites
import DonutServer.Lib.AtomicFile
import DonutServer.Plots.Manifest

namespace DonutServer

open AtomicFile Function

/-- `PLOT_FIGURES`: what the plot task calls a figure, and what its files are called. -/
def plotFigures : List (String × String) :=
  [("donutDiagPlot", "donut"), ("wfDiagPlot", "wavefront"), ("selectionDiagPlot", "selection")]

/-- `server.PLOT_NAMES` stays in step with it. -/
example : plotFigures.map Prod.snd = plotNames := rfl

/-- `to_parquet` and how it is read back, the plot task, and `savefig` for either size. -/
structure Studio (T F : Type) where
  toParquet : T → List UInt8
  readTable : List UInt8 → Except String T
  plot : T → Option T → Option T → Except String (String → Option F)
  png : F → String → List UInt8

/-- What is read back of a table is the table. -/
def Studio.Faithful {T F : Type} (studio : Studio T F) : Prop :=
  ∀ t, studio.readTable (studio.toParquet t) = .ok t

/-- A figure to be saved: the name and the size of its file, and the figure. -/
structure Save (F : Type) where
  name : String
  size : String
  figure : F

/-- The files `render_plots` saves, in turn: a figure the task left out has none. -/
def saves {F : Type} (figures : String → Option F) : List (Save F) :=
  plotFigures.flatMap fun x =>
    match figures x.1 with
    | none => []
    | some figure => plotSizes.map fun size => ⟨x.2, size, figure⟩

/-- Where `render_plots` is: waiting for the result table; looking for the selection tables, with
what it has read and what it has yet to look for; or saving, with what is left to be saved. -/
inductive Drawing (T F : Type)
  | awaiting
  | reading (catalog : T) (optional : OrderedDict String T) (rest : List (String × String))
  | saving (figures : String → Option F) (rest : List (Save F))

/-- The job of a coordinator, and the tables it has yet to write. -/
structure Clerk (T : Type) where
  jobId : JobId
  left : List (String × T)

/-- Who writes: a coordinator, or the child of a plot flight. -/
inductive Party (C D : Type)
  | clerk (c : C)
  | drawer (i : D)
  deriving DecidableEq

/-- The files, the tables of each job that was run, and what each party is at. -/
structure Depot (C D T F : Type) where
  files : AtomicFile.Disk (Party C D) String UInt8
  ran : JobId → Option (Tables T)
  clerks : C → Option (Clerk T)
  drawers : D → Option (JobId × Drawing T F)

/-- What can happen around the directory. -/
inductive DepotAction (C D T : Type)
  | complete (c : C) (jobId : JobId) (tables : Tables T)
  | start (w : Party C D)
  | write (w : Party C D) (n : Nat)
  | place (w : Party C D)
  | fail (w : Party C D)
  | kill (w : Party C D)
  | draw (i : D) (jobId : JobId)
  | read (i : D)
  | missing (i : D)
  | plot (i : D)
  | done (i : D)
  | remove (path : String)

/-- `f"{path}.tmp"`. -/
def tmpName (path : String) : String := path ++ ".tmp"

variable {C D T F : Type}

/-- A file is behind. -/
def Drawing.advance : Drawing T F → Drawing T F
  | .saving figures rest => .saving figures rest.tail
  | x => x

namespace Depot

variable [DecidableEq C] [DecidableEq D] (studio : Studio T F) (directory : String)

/-- Nobody has done anything yet. -/
def empty : Depot C D T F := ⟨.empty, fun _ => none, fun _ => none, fun _ => none⟩

/-- What a party saves next: where, and what. -/
def upNext (w : Party C D) (d : Depot C D T F) : Option (String × List UInt8) :=
  match w with
  | .clerk c =>
      match d.clerks c with
      | some ⟨_, (path, table) :: _⟩ => some (path, studio.toParquet table)
      | _ => none
  | .drawer i =>
      match d.drawers i with
      | some (jobId, .saving _ (f :: _)) =>
          some (plotPath directory jobId f.name f.size, studio.png f.figure f.size)
      | _ => none

/-- A party goes on to its next file. -/
def advance (w : Party C D) (d : Depot C D T F) : Depot C D T F :=
  match w with
  | .clerk c =>
      { d with
        clerks := update d.clerks c ((d.clerks c).map fun x => { x with left := x.left.tail }) }
  | .drawer i =>
      { d with drawers := update d.drawers i ((d.drawers i).map fun x => (x.1, x.2.advance)) }

/-- A party is at nothing any more. -/
def quit (w : Party C D) (d : Depot C D T F) : Depot C D T F :=
  match w with
  | .clerk c => { d with clerks := update d.clerks c none }
  | .drawer i => { d with drawers := update d.drawers i none }

/-- `render_plots` gets to `x`. -/
def goto (i : D) (jobId : JobId) (x : Drawing T F) (d : Depot C D T F) : Depot C D T F :=
  { d with drawers := update d.drawers i (some (jobId, x)) }

/-- A step on the files. -/
def onFiles (a : FileAction (Party C D) String UInt8) (d : Depot C D T F) :
    Option (Depot C D T F) :=
  (d.files.next tmpName a).map fun files => { d with files := files }

/-- The table `render_plots` looks for. -/
def awaited (i : D) (d : Depot C D T F) : Option String :=
  match d.drawers i with
  | some (jobId, .awaiting) => some (PyText.joinPath directory (stampName jobId))
  | some (jobId, .reading _ _ (x :: _)) => some (PyText.joinPath directory (selectionName jobId x.2))
  | _ => none

/-- A table has been read. -/
def took (i : D) (t : T) (d : Depot C D T F) : Depot C D T F :=
  match d.drawers i with
  | some (jobId, .awaiting) => d.goto i jobId (.reading t .empty plotTables)
  | some (jobId, .reading catalog optional (x :: rest)) =>
      d.goto i jobId (.reading catalog (optional.set x.1 t) rest)
  | _ => d

/-- `_await_table` came back without the table: a job cannot do without its result table. -/
def missed (i : D) (d : Depot C D T F) : Depot C D T F :=
  match d.drawers i with
  | some (jobId, .reading catalog optional (_ :: rest)) =>
      d.goto i jobId (.reading catalog optional rest)
  | _ => d.quit (.drawer i)

/-- **One step around the directory.**  A failure of a coordinator costs it the file it was at,
and one of `render_plots` ends it. -/
def next (d : Depot C D T F) : DepotAction C D T → Option (Depot C D T F)
  | .complete c jobId tables =>
      match d.clerks c with
      | some ⟨_, _ :: _⟩ => none
      | _ =>
          some { d with
            ran := update d.ran jobId (some tables)
            clerks := update d.clerks c (some ⟨jobId, tables.files directory jobId⟩) }
  | .start w => (d.upNext studio directory w).bind fun f => d.onFiles (.start w f.1 f.2)
  | .write w n => d.onFiles (.write w n)
  | .place w => (d.onFiles (.place w)).map (advance w)
  | .fail (.clerk c) => (d.onFiles (.leave (.clerk c))).map (advance (.clerk c))
  | .fail (.drawer i) => (d.onFiles (.leave (.drawer i))).map (quit (.drawer i))
  | .kill w => (d.onFiles (.leave w)).map (quit w)
  | .draw i jobId =>
      match d.drawers i with
      | some _ => none
      | none => some (d.goto i jobId .awaiting)
  | .read i =>
      (d.awaited directory i).bind fun path => (d.files.read path).map fun bytes =>
        match studio.readTable bytes with
        | .error _ => d.quit (.drawer i)
        | .ok t => d.took i t
  | .missing i =>
      (d.awaited directory i).bind fun path =>
        match d.files.read path with
        | some _ => none
        | none => some (d.missed i)
  | .plot i =>
      match d.drawers i with
      | some (jobId, .reading catalog optional []) =>
          match studio.plot catalog (optional.get? "detectorImages")
              (optional.get? "selectionOverlays") with
          | .error _ => some (d.quit (.drawer i))
          | .ok figures => some (d.goto i jobId (.saving figures (saves figures)))
      | _ => none
  | .done i =>
      match d.drawers i with
      | some (_, .saving _ []) => some (d.quit (.drawer i))
      | _ => none
  | .remove path => d.onFiles (.remove path)

end Depot

/-! ### Names

All of this rests on names being different: those of a table, of a figure, of a temporary file and
of another job.  Each kind is told by how it ends, and jobs by how it begins, which takes ids that
have no dot and no slash in them.
-/

/-- No two places share a temporary name. -/
theorem tmpName_injective : Injective tmpName :=
  fun _ _ h => (String.append_left_inj ".tmp").mp h

theorem getLast?_append {a b : String} {c : Char} (h : b.toList.getLast? = some c) :
    (a ++ b).toList.getLast? = some c := by
  rw [String.toList_append, List.getLast?_append, h]
  rfl

/-- A path ends as its name ends. -/
theorem joinPath_last {directory name : String} {c : Char} (h : name.toList.getLast? = some c) :
    (PyText.joinPath directory name).toList.getLast? = some c := by
  unfold PyText.joinPath
  split_ifs
  exacts [h, getLast?_append h, getLast?_append h]

/-- A temporary name ends like no other file, -/
theorem tmpName_last {path : String} : (tmpName path).toList.getLast? = some 'p' :=
  getLast?_append rfl

/-- a table's as parquet files end, -/
theorem tablePaths_last {directory path : String} {jobId : JobId}
    (h : path ∈ tablePaths directory jobId) : path.toList.getLast? = some 't' := by
  obtain ⟨ending, hending, rfl⟩ := List.mem_map.mp h
  have hlast : ∀ ending ∈ tableEndings, ending.toList.getLast? = some 't' := by decide
  exact joinPath_last (getLast?_append (hlast ending hending))

/-- and a figure's as images end. -/
theorem plotPath_last {directory name size : String} {jobId : JobId} :
    (plotPath directory jobId name size).toList.getLast? = some 'g' :=
  joinPath_last (getLast?_append rfl)

theorem table_not_tmp {directory path : String} {jobId : JobId}
    (h : path ∈ tablePaths directory jobId) : path ∉ Set.range tmpName := by
  rintro ⟨other, rfl⟩
  exact absurd ((tablePaths_last h).symm.trans tmpName_last) (by decide)

theorem plot_not_tmp {directory name size : String} {jobId : JobId} :
    plotPath directory jobId name size ∉ Set.range tmpName := by
  rintro ⟨other, heq⟩
  have hlast : (plotPath directory jobId name size).toList.getLast? = some 'g' := plotPath_last
  rw [← heq] at hlast
  exact absurd (hlast.symm.trans tmpName_last) (by decide)

theorem plainId_of_ok {jobId : JobId} (h : PlotQueue.jobIdOk jobId = true) : PlainId jobId := by
  obtain ⟨-, hslash, hdot⟩ := jobIdOk_plain h
  intro c hc
  constructor
  · rintro rfl
    exact hdot hc
  · rintro rfl
    exact hslash hc

/-! ### What is drawn of what

A draw reads the result table when it finds it, and each of the selection tables if it is there by
then.  So what a figure is drawn from is a result table with some selection tables, and what has to
be shown is that all of them are of one run.

`Knows` follows the draw along: what it has read so far is of one run, and what it has saved was
drawn from what it has read.
-/

variable {studio : Studio T F} {directory : String}

theorem mem_saves {figures : String → Option F} {f : Save F} : f ∈ saves figures ↔
    ∃ attr, (attr, f.name) ∈ plotFigures ∧ f.size ∈ plotSizes ∧ figures attr = some f.figure := by
  unfold saves
  rw [List.mem_flatMap]
  constructor
  · intro h
    obtain ⟨⟨attr, name⟩, hattr, hf⟩ := h
    cases hfigure : figures attr with
    | none => simp [hfigure] at hf
    | some figure =>
        simp only [hfigure, List.mem_map] at hf
        obtain ⟨size, hsize, rfl⟩ := hf
        exact ⟨attr, hattr, hsize, hfigure⟩
  · intro h
    obtain ⟨attr, hattr, hsize, hfigure⟩ := h
    refine ⟨(attr, f.name), hattr, ?_⟩
    simp only [hfigure, List.mem_map]
    exact ⟨f.size, hsize, rfl⟩

/-- A file is saved once. -/
theorem saves_inj {figures : String → Option F} {f g : Save F} (hf : f ∈ saves figures)
    (hg : g ∈ saves figures) (hname : f.name = g.name) (hsize : f.size = g.size) : f = g := by
  obtain ⟨attr, hattr, -, hfigure⟩ := mem_saves.mp hf
  obtain ⟨attr', hattr', -, hfigure'⟩ := mem_saves.mp hg
  have hinj : ∀ x ∈ plotFigures, ∀ y ∈ plotFigures, x.2 = y.2 → x = y := by decide
  obtain rfl := (Prod.mk.inj (hinj _ hattr _ hattr' hname)).1
  obtain ⟨name, size, figure⟩ := f
  obtain ⟨name', size', figure'⟩ := g
  simp_all

/-- The files that are saved have names that a figure of the job may have. -/
theorem saves_name {figures : String → Option F} {f : Save F} (hf : f ∈ saves figures) :
    f.name ∈ plotNames ∧ f.size ∈ plotSizes := by
  obtain ⟨attr, hattr, hsize, -⟩ := mem_saves.mp hf
  exact ⟨List.mem_map_of_mem (f := Prod.snd) hattr, hsize⟩

/-- Only selection tables of the same run are there, but not all of them need be. -/
def PartOf (optional : OrderedDict String T) (tables : Tables T) : Prop :=
  ∀ name t, optional.get? name = some t → tables.selection.get? name = some t

/-- The figures were drawn from the result table of a run, and from selection tables of it. -/
def DrawnFrom (studio : Studio T F) (tables : Tables T) (figures : String → Option F) : Prop :=
  ∃ optional, PartOf optional tables ∧
    studio.plot tables.table (optional.get? "detectorImages") (optional.get? "selectionOverlays") =
      .ok figures

/-- What `render_plots` knows of a job, given what was run and what there is to be read. -/
def Drawing.Knows (studio : Studio T F) (directory : String) (ran : Option (Tables T))
    (read : String → Option (List UInt8)) (jobId : JobId) : Drawing T F → Prop
  | .awaiting => True
  | .reading catalog optional rest => ∃ tables, ran = some tables ∧ catalog = tables.table ∧
      PartOf optional tables ∧ rest <:+ plotTables
  | .saving figures rest => ∃ tables, ran = some tables ∧ DrawnFrom studio tables figures ∧
      ∃ saved, saves figures = saved ++ rest ∧ ∀ f ∈ saved,
        read (plotPath directory jobId f.name f.size) = some (studio.png f.figure f.size)

/-- **What stands in the directory**: under the paths of a job's tables, tables of its run, and
under those of its figures, figures drawn from them; each of them whole. -/
structure Shown (studio : Studio T F) (directory : String) (ran : JobId → Option (Tables T))
    (read : String → Option (List UInt8)) : Prop where
  tables : ∀ jobId path bytes, PlainId jobId → path ∈ tablePaths directory jobId →
    read path = some bytes → ∃ tables t, ran jobId = some tables ∧
      (path, t) ∈ tables.files directory jobId ∧ bytes = studio.toParquet t
  figures : ∀ jobId name size bytes, PlotQueue.jobIdOk jobId = true → name ∈ plotNames →
    size ∈ plotSizes → read (plotPath directory jobId name size) = some bytes →
      ∃ tables figures f, ran jobId = some tables ∧ DrawnFrom studio tables figures ∧
        f ∈ saves figures ∧ f.name = name ∧ f.size = size ∧ bytes = studio.png f.figure f.size

variable {ran ran' : JobId → Option (Tables T)} {read read' : String → Option (List UInt8)}
  {jobId : JobId} {x : Drawing T F}

/-- A path stands for one table of a run. -/
theorem files_inj {tables : Tables T} {path : String} {t t' : T}
    (h : (path, t) ∈ tables.files directory jobId)
    (h' : (path, t') ∈ tables.files directory jobId) : t = t' :=
  congrArg Prod.snd (List.inj_on_of_nodup_map (nodup_files directory jobId tables) h h' rfl)

/-- Under the name of a selection table stands the selection table. -/
theorem files_selection {tables : Tables T} {x : String × String} {t : T} (hx : x ∈ plotTables)
    (h : (PyText.joinPath directory (selectionName jobId x.2), t) ∈ tables.files directory jobId) :
    tables.selection.get? x.1 = some t := by
  have hname : ∀ kind, selectionName jobId kind = jobId ++ ("." ++ kind ++ ".parquet") := by
    intro kind
    unfold selectionName
    rw [String.append_assoc]
  have hending : ∀ y ∈ plotTables, "." ++ y.2 ++ ".parquet" ∈ tableEndings :=
    fun y hy => List.mem_cons_of_mem _ (List.mem_map_of_mem (f := fun y => _) hy)
  obtain ⟨f, hf, heq⟩ := List.mem_map.mp h
  obtain ⟨hpath, rfl⟩ := Prod.mk.inj heq
  rw [hname] at hpath
  rcases List.mem_cons.mp hf with rfl | hf
  · have hsame := tablePath_inj (List.mem_cons_self ..) (hending x hx) hpath
    have hother : ∀ y ∈ plotTables, ".parquet" ≠ "." ++ y.2 ++ ".parquet" := by decide
    exact absurd hsame (hother x hx)
  · obtain ⟨y, hy, hsub⟩ := List.mem_filterMap.mp hf
    obtain ⟨subtable, hget, rfl⟩ := Option.map_eq_some_iff.mp hsub
    dsimp only at hpath
    rw [hname] at hpath
    have hsame := tablePath_inj (hending y hy) (hending x hx) hpath
    have hinj : ∀ y ∈ plotTables, ∀ x ∈ plotTables,
        "." ++ y.2 ++ ".parquet" = "." ++ x.2 ++ ".parquet" → y = x := by decide
    rw [← hinj y hy x hx hsame]
    exact hget

/-- Nothing new is read. -/
theorem Shown.fewer (h : Shown studio directory ran read)
    (hread : ∀ path ∉ Set.range tmpName, ∀ bytes, read' path = some bytes → read path = some bytes) :
    Shown studio directory ran read' := by
  constructor
  · intro jobId path bytes hid hpath hbytes
    exact h.tables jobId path bytes hid hpath (hread path (table_not_tmp hpath) bytes hbytes)
  · intro jobId name size bytes hid hname hsize hbytes
    exact h.figures jobId name size bytes hid hname hsize (hread _ plot_not_tmp bytes hbytes)

/-- A job is run that was not run before. -/
theorem Shown.more (h : Shown studio directory ran read)
    (hran : ∀ jobId tables, ran jobId = some tables → ran' jobId = some tables) :
    Shown studio directory ran' read := by
  constructor
  · intro jobId path bytes hid hpath hbytes
    obtain ⟨tables, t, hjob, hrest⟩ := h.tables jobId path bytes hid hpath hbytes
    exact ⟨tables, t, hran jobId tables hjob, hrest⟩
  · intro jobId name size bytes hid hname hsize hbytes
    obtain ⟨tables, figures, f, hjob, hrest⟩ := h.figures jobId name size bytes hid hname hsize hbytes
    exact ⟨tables, figures, f, hran jobId tables hjob, hrest⟩

/-- A table of a run is put in its place. -/
theorem Shown.table {tables : Tables T} {path : String} {t : T}
    (h : Shown studio directory ran read) (hid : PlainId jobId) (hran : ran jobId = some tables)
    (hmem : (path, t) ∈ tables.files directory jobId) (hread : ∀ name ∉ Set.range tmpName,
      read' name = update read path (some (studio.toParquet t)) name) :
    Shown studio directory ran read' := by
  have hpath : path ∈ tablePaths directory jobId :=
    (files_paths directory jobId tables).subset (List.mem_map_of_mem hmem)
  constructor
  · intro jobId' path' bytes hid' hpath' hbytes
    rw [hread path' (table_not_tmp hpath')] at hbytes
    by_cases heq : path' = path
    · subst heq
      obtain rfl := plainId_inj hid' hid hpath' hpath
      rw [update_self] at hbytes
      exact ⟨tables, t, hran, hmem, (Option.some.inj hbytes).symm⟩
    · rw [update_of_ne heq] at hbytes
      exact h.tables jobId' path' bytes hid' hpath' hbytes
  · intro jobId' name size bytes hid' hname hsize hbytes
    have hne : plotPath directory jobId' name size ≠ path := by
      rintro rfl
      exact absurd ((tablePaths_last hpath).symm.trans plotPath_last) (by decide)
    rw [hread _ plot_not_tmp, update_of_ne hne] at hbytes
    exact h.figures jobId' name size bytes hid' hname hsize hbytes

/-- A figure of a draw is put in its place. -/
theorem Shown.figure {tables : Tables T} {figures : String → Option F} {f : Save F}
    (h : Shown studio directory ran read) (hid : PlotQueue.jobIdOk jobId = true)
    (hran : ran jobId = some tables) (hdrawn : DrawnFrom studio tables figures)
    (hmem : f ∈ saves figures) (hread : ∀ path ∉ Set.range tmpName,
      read' path = update read (plotPath directory jobId f.name f.size)
        (some (studio.png f.figure f.size)) path) :
    Shown studio directory ran read' := by
  constructor
  · intro jobId' path bytes hid' hpath hbytes
    have hne : path ≠ plotPath directory jobId f.name f.size := by
      rintro rfl
      exact absurd ((tablePaths_last hpath).symm.trans plotPath_last) (by decide)
    rw [hread path (table_not_tmp hpath), update_of_ne hne] at hbytes
    exact h.tables jobId' path bytes hid' hpath hbytes
  · intro jobId' name size bytes hid' hname hsize hbytes
    rw [hread _ plot_not_tmp] at hbytes
    by_cases heq : plotPath directory jobId' name size = plotPath directory jobId f.name f.size
    · obtain ⟨rfl, rfl, rfl⟩ := plotPath_inj hid' hid hname (saves_name hmem).1 hsize
        (saves_name hmem).2 heq
      rw [update_self] at hbytes
      exact ⟨tables, figures, f, hran, hdrawn, hmem, rfl, rfl, (Option.some.inj hbytes).symm⟩
    · rw [update_of_ne heq] at hbytes
      exact h.figures jobId' name size bytes hid' hname hsize hbytes

/-- The figures of the job stay, and so does what was run of it. -/
theorem Drawing.Knows.congr {ran ran' : Option (Tables T)}
    (h : x.Knows studio directory ran read jobId)
    (hran : ∀ tables, ran = some tables → ran' = some tables)
    (hread : ∀ name ∈ plotNames, ∀ size ∈ plotSizes, read' (plotPath directory jobId name size) =
      read (plotPath directory jobId name size)) : x.Knows studio directory ran' read' jobId := by
  cases x with
  | awaiting => trivial
  | reading catalog optional rest =>
      obtain ⟨tables, hjob, hrest⟩ := h
      exact ⟨tables, hran tables hjob, hrest⟩
  | saving figures rest =>
      obtain ⟨tables, hjob, hdrawn, saved, hsplit, hsaved⟩ := h
      refine ⟨tables, hran tables hjob, hdrawn, saved, hsplit, fun f hf => ?_⟩
      have hmem : f ∈ saves figures := by
        rw [hsplit]
        exact List.mem_append_left _ hf
      rw [hread f.name (saves_name hmem).1 f.size (saves_name hmem).2]
      exact hsaved f hf

/-- A figure of the draw is put in its place. -/
theorem Drawing.Knows.put {ran : Option (Tables T)} {figures : String → Option F} {f : Save F}
    {rest : List (Save F)} (h : (saving figures (f :: rest)).Knows studio directory ran read jobId)
    (hid : PlotQueue.jobIdOk jobId = true) (hread : ∀ path ∉ Set.range tmpName,
      read' path = update read (plotPath directory jobId f.name f.size)
        (some (studio.png f.figure f.size)) path) :
    (saving figures (f :: rest) : Drawing T F).Knows studio directory ran read' jobId ∧
      (saving figures rest : Drawing T F).Knows studio directory ran read' jobId := by
  obtain ⟨tables, hjob, hdrawn, saved, hsplit, hsaved⟩ := h
  have hmem : ∀ g ∈ saved ++ [f], g ∈ saves figures := by
    intro g hg
    rw [hsplit, ← List.singleton_append, ← List.append_assoc]
    exact List.mem_append_left _ hg
  have hself : read' (plotPath directory jobId f.name f.size) =
      some (studio.png f.figure f.size) := by
    rw [hread _ plot_not_tmp, update_self]
  have hkept : ∀ g ∈ saved, read' (plotPath directory jobId g.name g.size) =
      some (studio.png g.figure g.size) := by
    intro g hg
    have hg' := hmem g (List.mem_append_left _ hg)
    have hf' := hmem f (List.mem_append_right _ (List.mem_singleton_self f))
    by_cases heq : plotPath directory jobId g.name g.size = plotPath directory jobId f.name f.size
    · obtain ⟨-, hname, hsize⟩ := plotPath_inj hid hid (saves_name hg').1 (saves_name hf').1
        (saves_name hg').2 (saves_name hf').2 heq
      rw [saves_inj hg' hf' hname hsize]
      exact hself
    · rw [hread _ plot_not_tmp, update_of_ne heq]
      exact hsaved g hg
  refine ⟨⟨tables, hjob, hdrawn, saved, hsplit, hkept⟩, tables, hjob, hdrawn, saved ++ [f], ?_, ?_⟩
  · rw [hsplit, List.append_assoc, List.singleton_append]
  · intro g hg
    rcases List.mem_append.mp hg with hg | hg
    · exact hkept g hg
    · rw [List.mem_singleton.mp hg]
      exact hself

end DonutServer
