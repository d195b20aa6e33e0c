/-
What stands in the stamp directory is whole, and its job's own.

Each party is at a job of its own, so no two write for one place, and what is read while it is
drawn is the tables of the run that the job was.  A figure is then drawn from those, however the
parties are interleaved and wherever they are killed.

What was left by earlier processes is taken to be whole as well.  That is no more than what any run
leaves, so a depot that is started over what another one left is in order.
-/
import DonutServer.Plots.Depot

namespace DonutServer

open AtomicFile Function

variable {C D T F : Type} {studio : Studio T F} {directory : String} {jobId : JobId}

namespace Depot

variable {d d' : Depot C D T F} {w w' : Party C D}

/-! ### What the parties are at

A coordinator has the tables of one run before it, and a draw the figures of one job.  So for every
party it is settled what it saves next, where that goes and what it is drawn from, and no two
parties are ever to save the same file.
-/

/-- Each party is at a job of its own, and knows of it what it should. -/
structure Parties (studio : Studio T F) (directory : String) (d : Depot C D T F) : Prop where
  plain : ∀ jobId tables, d.ran jobId = some tables → PlainId jobId
  clerk : ∀ c x, d.clerks c = some x → ∃ tables, d.ran x.jobId = some tables ∧
    x.left <:+ tables.files directory x.jobId
  clerks : ∀ c c' x y, d.clerks c = some x → d.clerks c' = some y → x.jobId = y.jobId → c = c'
  drawable : ∀ i jobId x, d.drawers i = some (jobId, x) → PlotQueue.jobIdOk jobId = true
  drawers : ∀ i i' jobId x y, d.drawers i = some (jobId, x) → d.drawers i' = some (jobId, y) →
    i = i'
  knows : ∀ i jobId x, d.drawers i = some (jobId, x) →
    x.Knows studio directory (d.ran jobId) d.files.read jobId

/-- What a party saves next: a table of a run, or a figure drawn from one. -/
inductive UpNext (studio : Studio T F) (directory : String) (d : Depot C D T F) :
    Party C D → String → List UInt8 → Prop
  | table (c : C) (jobId : JobId) (tables : Tables T) (path : String) (t : T)
      (rest : List (String × T)) (hclerk : d.clerks c = some ⟨jobId, (path, t) :: rest⟩)
      (hran : d.ran jobId = some tables) (hmem : (path, t) ∈ tables.files directory jobId) :
      UpNext studio directory d (.clerk c) path (studio.toParquet t)
  | figure (i : D) (jobId : JobId) (tables : Tables T) (figures : String → Option F) (f : Save F)
      (rest : List (Save F)) (hdrawer : d.drawers i = some (jobId, .saving figures (f :: rest)))
      (hran : d.ran jobId = some tables) (hdrawn : DrawnFrom studio tables figures)
      (hmem : f ∈ saves figures) :
      UpNext studio directory d (.drawer i) (plotPath directory jobId f.name f.size)
        (studio.png f.figure f.size)

/-- What a party saves next is a table of a run, or a figure drawn from one. -/
theorem Parties.upNext {path : String} {bytes : List UInt8} (h : d.Parties studio directory)
    (hnext : d.upNext studio directory w = some (path, bytes)) :
    d.UpNext studio directory w path bytes := by
  cases w with
  | clerk c =>
      unfold Depot.upNext at hnext
      dsimp only at hnext
      split at hnext
      next jobId path t rest hclerk =>
        obtain ⟨rfl, rfl⟩ := Prod.mk.inj (Option.some.inj hnext)
        obtain ⟨tables, hran, hleft⟩ := h.clerk c _ hclerk
        exact .table c jobId tables path t rest hclerk hran (hleft.subset (List.mem_cons_self ..))
      next => exact absurd hnext (by simp)
  | drawer i =>
      unfold Depot.upNext at hnext
      dsimp only at hnext
      split at hnext
      next jobId figures f rest hdrawer =>
        obtain ⟨rfl, rfl⟩ := Prod.mk.inj (Option.some.inj hnext)
        obtain ⟨tables, hran, hdrawn, saved, hsplit, -⟩ := h.knows i jobId _ hdrawer
        refine .figure i jobId tables figures f rest hdrawer hran hdrawn ?_
        rw [hsplit]
        exact List.mem_append_right _ (List.mem_cons_self ..)
      next => exact absurd hnext (by simp)

/-- What a party saves goes to no temporary name. -/
theorem UpNext.place {path : String} {bytes : List UInt8} (h : d.UpNext studio directory w path bytes) :
    path ∉ Set.range tmpName := by
  cases h with
  | table c jobId tables path t rest hclerk hran hmem =>
      exact table_not_tmp ((files_paths directory jobId tables).subset (List.mem_map_of_mem hmem))
  | figure => exact plot_not_tmp

/-- No two parties are to save one file. -/
theorem Parties.apart {path path' : String} {bytes bytes' : List UInt8}
    (h : d.Parties studio directory) (hw : d.UpNext studio directory w path bytes)
    (hw' : d.UpNext studio directory w' path' bytes') (hne : w ≠ w') : path ≠ path' := by
  rintro rfl
  cases hw with
  | table c jobId tables path t rest hclerk hran hmem =>
      have hpath : path ∈ tablePaths directory jobId :=
        (files_paths directory jobId tables).subset (List.mem_map_of_mem hmem)
      generalize hp : path = p at hw'
      cases hw' with
      | table c' jobId' tables' path' t' rest' hclerk' hran' hmem' =>
          subst hp
          have hjob := plainId_inj (h.plain _ _ hran) (h.plain _ _ hran') hpath
            ((files_paths directory jobId' tables').subset (List.mem_map_of_mem hmem'))
          exact hne (congrArg Party.clerk (h.clerks c c' _ _ hclerk hclerk' hjob))
      | figure i jobId' tables' figures f rest' hdrawer hran' hdrawn hmem' =>
          rw [hp] at hpath
          exact absurd ((tablePaths_last hpath).symm.trans plotPath_last) (by decide)
  | figure i jobId tables figures f rest hdrawer hran hdrawn hmem =>
      generalize hp : plotPath directory jobId f.name f.size = p at hw'
      cases hw' with
      | table c' jobId' tables' path' t' rest' hclerk' hran' hmem' =>
          have hpath : p ∈ tablePaths directory jobId' :=
            (files_paths directory jobId' tables').subset (List.mem_map_of_mem hmem')
          rw [← hp] at hpath
          exact absurd ((tablePaths_last hpath).symm.trans plotPath_last) (by decide)
      | figure i' jobId' tables' figures' f' rest' hdrawer' hran' hdrawn' hmem' =>
          have hjob := (plotPath_inj (h.drawable _ _ _ hdrawer) (h.drawable _ _ _ hdrawer')
            (saves_name hmem).1 (saves_name hmem').1 (saves_name hmem).2 (saves_name hmem').2 hp).1
          subst hjob
          exact hne (congrArg Party.drawer (h.drawers i i' jobId _ _ hdrawer hdrawer'))

/-! ### One party changes

A step moves one party on.  The others are where they were, and what they know is true as long as
no file of theirs has changed; that is what each lemma has to make sure of.
-/

/-- The files may change where what every draw knows stays true. -/
theorem Parties.files {files : AtomicFile.Disk (Party C D) String UInt8}
    (h : d.Parties studio directory) (hknows : ∀ i jobId x, d.drawers i = some (jobId, x) →
      x.Knows studio directory (d.ran jobId) files.read jobId) :
    Parties studio directory { d with files := files } :=
  ⟨h.plain, h.clerk, h.clerks, h.drawable, h.drawers, hknows⟩

theorem Parties.setDrawer [DecidableEq D] {i : D} {v : Option (JobId × Drawing T F)}
    (h : d.Parties studio directory) (hv : ∀ jobId x, v = some (jobId, x) →
      PlotQueue.jobIdOk jobId = true ∧ x.Knows studio directory (d.ran jobId) d.files.read jobId ∧
        ∀ i' y, i' ≠ i → d.drawers i' ≠ some (jobId, y)) :
    Parties studio directory { d with drawers := update d.drawers i v } := by
  have hcases : ∀ i' jobId x, update d.drawers i v i' = some (jobId, x) →
      i' = i ∧ v = some (jobId, x) ∨ i' ≠ i ∧ d.drawers i' = some (jobId, x) := by
    intro i' jobId x hi
    by_cases heq : i' = i
    · subst heq
      rw [update_self] at hi
      exact Or.inl ⟨rfl, hi⟩
    · rw [update_of_ne heq] at hi
      exact Or.inr ⟨heq, hi⟩
  refine ⟨h.plain, h.clerk, h.clerks, ?_, ?_, ?_⟩
  · intro i' jobId x hi
    rcases hcases i' jobId x hi with ⟨-, hself⟩ | ⟨-, hother⟩
    · exact (hv jobId x hself).1
    · exact h.drawable i' jobId x hother
  · intro i₁ i₂ jobId x y hx hy
    rcases hcases i₁ jobId x hx with ⟨rfl, hself⟩ | ⟨hne, hother⟩ <;>
      rcases hcases i₂ jobId y hy with ⟨rfl, hself'⟩ | ⟨hne', hother'⟩
    · rfl
    · exact absurd hother' ((hv jobId x hself).2.2 i₂ y hne')
    · exact absurd hother ((hv jobId y hself').2.2 i₁ x hne)
    · exact h.drawers i₁ i₂ jobId x y hother hother'
  · intro i' jobId x hi
    rcases hcases i' jobId x hi with ⟨-, hself⟩ | ⟨-, hother⟩
    · exact (hv jobId x hself).2.1
    · exact h.knows i' jobId x hother

/-- `render_plots` goes on with its job. -/
theorem Parties.goto [DecidableEq D] {i : D} {jobId : JobId} {x y : Drawing T F} (h : d.Parties studio directory)
    (hi : d.drawers i = some (jobId, x))
    (hy : y.Knows studio directory (d.ran jobId) d.files.read jobId) :
    (d.goto i jobId y).Parties studio directory := by
  refine h.setDrawer fun jobId' z hz => ?_
  obtain ⟨rfl, rfl⟩ := Prod.mk.inj (Option.some.inj hz)
  refine ⟨h.drawable i _ x hi, hy, fun i' z hne hi' => hne ?_⟩
  exact h.drawers i' i _ z x hi' hi

/-- What is read under the path it looks for is the table of its job's run. -/
theorem Parties.took [DecidableEq D] {i : D} {path : String} {bytes : List UInt8} {t : T}
    (h : d.Parties studio directory) (hshown : Shown studio directory d.ran d.files.read)
    (hfaithful : studio.Faithful) (hpath : d.awaited directory i = some path)
    (hbytes : d.files.read path = some bytes) (ht : studio.readTable bytes = .ok t) :
    (d.took i t).Parties studio directory := by
  have hread : ∀ jobId ending, PlotQueue.jobIdOk jobId = true → ending ∈ tableEndings →
      path = PyText.joinPath directory (jobId ++ ending) → ∃ tables, d.ran jobId = some tables ∧
        (path, t) ∈ tables.files directory jobId := by
    intro jobId ending hid hending heq
    have hmem : path ∈ tablePaths directory jobId :=
      List.mem_map.mpr ⟨ending, hending, heq.symm⟩
    obtain ⟨tables, t', hran, hfile, rfl⟩ :=
      hshown.tables jobId path bytes (plainId_of_ok hid) hmem hbytes
    rw [hfaithful t'] at ht
    obtain rfl := Except.ok.inj ht
    exact ⟨tables, hran, hfile⟩
  unfold Depot.took
  rcases hi : d.drawers i with _ | ⟨jobId, _ | ⟨catalog, optional, _ | ⟨x, rest⟩⟩ | _⟩
  all_goals
    simp only [Depot.awaited, hi, Option.some.injEq, reduceCtorEq] at hpath
  · obtain ⟨tables, hran, hfile⟩ :=
      hread jobId ".parquet" (h.drawable i jobId _ hi) (List.mem_cons_self ..) hpath.symm
    refine h.goto hi ⟨tables, hran, ?_, fun name t hget => absurd hget (by simp), List.suffix_rfl⟩
    rw [← hpath] at hfile
    exact files_inj hfile (List.mem_cons_self ..)
  · obtain ⟨tables, hran, hcatalog, hpart, hrest⟩ := h.knows i jobId _ hi
    have hx : x ∈ plotTables := hrest.subset (List.mem_cons_self ..)
    obtain ⟨tables', hran', hfile⟩ := hread jobId ("." ++ x.2 ++ ".parquet")
      (h.drawable i jobId _ hi) (List.mem_cons_of_mem _ (List.mem_map_of_mem (f := fun y => _) hx))
      (by rw [← hpath, selectionName, String.append_assoc])
    obtain rfl := Option.some.inj (hran.symm.trans hran')
    refine h.goto hi ⟨tables, hran, hcatalog, ?_, (List.suffix_cons x rest).trans hrest⟩
    intro name t' hget
    rw [OrderedDict.get?_set] at hget
    split at hget
    next heq =>
      obtain rfl := Option.some.inj hget
      rw [← hpath] at hfile
      rw [heq]
      exact files_selection hx hfile
    next => exact hpart name t' hget

/-- A job is run that was not run before. -/
theorem Parties.more {tables : Tables T} {jobId : JobId}
    (h : d.Parties studio directory) (hid : PlainId jobId)
    (hkeep : ∀ job t, d.ran job = some t → update d.ran jobId (some tables) job = some t) :
    Parties studio directory { d with ran := update d.ran jobId (some tables) } := by
  refine ⟨?_, ?_, h.clerks, h.drawable, h.drawers, ?_⟩
  · intro job t ht
    by_cases heq : job = jobId
    · subst heq
      exact hid
    · have ht : update d.ran jobId (some tables) job = some t := ht
      rw [update_of_ne heq] at ht
      exact h.plain job t ht
  · intro c x hc
    obtain ⟨t, ht, hleft⟩ := h.clerk c x hc
    exact ⟨t, hkeep _ t ht, hleft⟩
  · intro i job x hi
    exact (h.knows i job x hi).congr (hkeep job) fun _ _ _ _ => rfl

theorem Parties.setClerk [DecidableEq C] {c : C} {v : Option (Clerk T)}
    (h : d.Parties studio directory) (hv : ∀ x, v = some x →
      (∃ tables, d.ran x.jobId = some tables ∧ x.left <:+ tables.files directory x.jobId) ∧
        ∀ c' y, c' ≠ c → d.clerks c' = some y → x.jobId ≠ y.jobId) :
    Parties studio directory { d with clerks := update d.clerks c v } := by
  have hcases : ∀ c' x, update d.clerks c v c' = some x →
      c' = c ∧ v = some x ∨ c' ≠ c ∧ d.clerks c' = some x := by
    intro c' x hc
    by_cases heq : c' = c
    · subst heq
      rw [update_self] at hc
      exact Or.inl ⟨rfl, hc⟩
    · rw [update_of_ne heq] at hc
      exact Or.inr ⟨heq, hc⟩
  refine ⟨h.plain, ?_, ?_, h.drawable, h.drawers, h.knows⟩
  · intro c' x hc
    rcases hcases c' x hc with ⟨-, hself⟩ | ⟨-, hother⟩
    · exact (hv x hself).1
    · exact h.clerk c' x hother
  · intro c₁ c₂ x y hx hy hjob
    rcases hcases c₁ x hx with ⟨rfl, hself⟩ | ⟨hne, hother⟩ <;>
      rcases hcases c₂ y hy with ⟨rfl, hself'⟩ | ⟨hne', hother'⟩
    · rfl
    · exact absurd hjob ((hv x hself).2 c₂ y hne' hother')
    · exact absurd hjob.symm ((hv y hself').2 c₁ x hne hother)
    · exact h.clerks c₁ c₂ x y hother hother' hjob

/-- **Everything in its place.** -/
structure Proper (studio : Studio T F) (directory : String) (d : Depot C D T F) : Prop where
  parties : d.Parties studio directory
  sound : d.files.Sound tmpName
  busy : ∀ w x, d.files.writers w = some x →
    d.upNext studio directory w = some (x.final, x.whole)
  shown : Shown studio directory d.ran d.files.read

/-- A party that has no file open may change what it is at. -/
theorem Proper.elsewhere (h : d.Proper studio directory) (hfree : d.files.writers w = none)
    (hfiles : d'.files = d.files) (hshown : Shown studio directory d'.ran d.files.read)
    (hparties : d'.Parties studio directory) (hother : ∀ w', w' ≠ w →
      d'.upNext studio directory w' = d.upNext studio directory w') :
    d'.Proper studio directory := by
  refine ⟨hparties, hfiles ▸ h.sound, fun w' x hw' => ?_, ?_⟩
  · rw [hfiles] at hw'
    have hne : w' ≠ w := by
      rintro rfl
      exact absurd (hfree.symm.trans hw') (by simp)
    rw [hother w' hne]
    exact h.busy w' x hw'
  · rw [hfiles]
    exact hshown

/-- A party that is to save nothing has no file open. -/
theorem Proper.unoccupied (h : d.Proper studio directory)
    (hnone : d.upNext studio directory w = none) : d.files.writers w = none := by
  cases hw : d.files.writers w with
  | none => rfl
  | some x => exact absurd (hnone.symm.trans (h.busy w x hw)) (by simp)

/-- Nobody else is at work for the file that a party saves next. -/
theorem Proper.apart_start {path : String} {bytes : List UInt8} (h : d.Proper studio directory)
    (hfree : d.files.writers w = none) (hnext : d.upNext studio directory w = some (path, bytes)) :
    d.files.Apart tmpName (.start w path bytes) := by
  refine ⟨(h.parties.upNext hnext).place, fun w' x hw' => ?_⟩
  have hne : w' ≠ w := by
    rintro rfl
    exact absurd (hfree.symm.trans hw') (by simp)
  exact h.parties.apart (h.parties.upNext (h.busy w' x hw')) (h.parties.upNext hnext) hne

/-- `render_plots` goes on, or ends, with no file open. -/
theorem Proper.onward [DecidableEq D] {i : D} (h : d.Proper studio directory)
    (hnone : d.upNext studio directory (.drawer i) = none) (v : Option (JobId × Drawing T F))
    (hparties : Parties studio directory { d with drawers := update d.drawers i v }) :
    Proper studio directory { d with drawers := update d.drawers i v } := by
  refine h.elsewhere (h.unoccupied hnone) rfl h.shown hparties fun w' hne => ?_
  cases w' with
  | clerk c => rfl
  | drawer i' =>
      have hi : i' ≠ i := fun heq => hne (congrArg Party.drawer heq)
      simp [Depot.upNext, update_of_ne hi]

/-- Who looks for a table saves nothing. -/
theorem upNext_awaited {i : D} {path : String} (h : d.awaited directory i = some path) :
    d.upNext studio directory (.drawer i) = none := by
  unfold Depot.awaited at h
  unfold Depot.upNext
  split at h <;> simp_all

/-- A draw that is where it was is at the job it was at. -/
theorem same_job {i : D} {job job' : JobId} {x y z : Drawing T F}
    (hi : d.drawers i = some (job, z)) (h : some (job, y) = some (job', x)) :
    ∃ y, d.drawers i = some (job', y) := by
  obtain rfl := (Prod.mk.inj (Option.some.inj h)).1
  exact ⟨z, hi⟩

variable [DecidableEq C] [DecidableEq D]

omit [DecidableEq C] in
/-- Reading changes where `render_plots` is, and no more; it stays at its job. -/
theorem took_same (d : Depot C D T F) (i : D) (t : T) :
    ∃ v, d.took i t = { d with drawers := update d.drawers i v } ∧
      ∀ job x, v = some (job, x) → ∃ y, d.drawers i = some (job, y) := by
  unfold Depot.took
  split
  next job hi => exact ⟨_, rfl, fun job' x hx => same_job hi hx⟩
  next job catalog optional x rest hi => exact ⟨_, rfl, fun job' x hx => same_job hi hx⟩
  next => exact ⟨d.drawers i, by rw [update_eq_self], fun job x hx => ⟨x, hx⟩⟩

/-- So does going without a table. -/
theorem missed_same (d : Depot C D T F) (i : D) :
    ∃ v, d.missed i = { d with drawers := update d.drawers i v } ∧
      ∀ job x, v = some (job, x) → ∃ y, d.drawers i = some (job, y) := by
  unfold Depot.missed
  split
  next job catalog optional x rest hi => exact ⟨_, rfl, fun job' x hx => same_job hi hx⟩
  next => exact ⟨none, rfl, fun job x hx => absurd hx (by simp)⟩

/-- A party that is at nothing any more is in nobody's way. -/
theorem Parties.quit (h : d.Parties studio directory) (w : Party C D) :
    (d.quit w).Parties studio directory := by
  cases w with
  | clerk c => exact h.setClerk fun x hx => absurd hx (by simp)
  | drawer i => exact h.setDrawer fun jobId x hx => absurd hx (by simp)

/-- A coordinator goes on to its next file. -/
theorem Parties.advanceClerk (h : d.Parties studio directory) (c : C) :
    (d.advance (.clerk c)).Parties studio directory := by
  refine h.setClerk fun x hx => ?_
  obtain ⟨y, hy, rfl⟩ := Option.map_eq_some_iff.mp hx
  obtain ⟨tables, hran, hleft⟩ := h.clerk c y hy
  refine ⟨⟨tables, hran, (List.tail_suffix _).trans hleft⟩, fun c' z hne hz hjob => hne ?_⟩
  exact h.clerks c' c z y hz hy hjob.symm

/-! ### Who is at work

`Orderly` says what is asked of a run, step by step.  It gives the library's condition on writers,
that no two are at work for one place, because the places of different jobs are different and each
job has one party at a time.
-/

/-- What `w` is to save does not depend on where another party has got to. -/
theorem upNext_other (hne : w' ≠ w) : (d.advance w).upNext studio directory w' =
      d.upNext studio directory w' ∧ (d.quit w).upNext studio directory w' =
      d.upNext studio directory w' := by
  cases w <;> cases w' <;>
    simp_all [Depot.upNext, Depot.advance, Depot.quit, update_of_ne]

/-- Each job is run once, and drawn by one at a time; and nobody takes away a file that is being
written, or a figure of a job that is being drawn. -/
def Orderly (directory : String) (d : Depot C D T F) : DepotAction C D T → Prop
  | .complete _ jobId _ => PlainId jobId ∧ d.ran jobId = none
  | .draw _ jobId => PlotQueue.jobIdOk jobId = true ∧ ∀ i x, d.drawers i ≠ some (jobId, x)
  | .remove path => (∀ w x, d.files.writers w = some x → path ≠ tmpName x.final) ∧
      ∀ i jobId x name size, d.drawers i = some (jobId, x) →
        path ≠ plotPath directory jobId name size
  | _ => True

/-- A step on the files that changes nothing of what the places read as. -/
theorem Proper.quiet {a : FileAction (Party C D) String UInt8} (h : d.Proper studio directory)
    (hok : d.files.Apart tmpName a) (heffect : d.files.effect a d.files.read = d.files.read)
    (hstep : d.onFiles a = some d')
    (hstart : ∀ w final whole, a = .start w final whole →
      d.upNext studio directory w = some (final, whole)) : d'.Proper studio directory := by
  obtain ⟨files, hfiles, rfl⟩ := Option.map_eq_some_iff.mp hstep
  obtain ⟨hsound, hread⟩ := h.sound.next tmpName_injective hok hfiles
  rw [heffect] at hread
  refine ⟨h.parties.files fun i jobId x hi => ?_, hsound, ?_, ?_⟩
  · exact (h.parties.knows i jobId x hi).congr (fun _ ht => ht)
      fun name _ size _ => hread _ plot_not_tmp
  · intro w x hw
    show d.upNext studio directory w = _
    rcases AtomicFile.Disk.next_writers hfiles hw with ⟨y, hy, hfinal, hwhole, -, -⟩ | hstarted
    · rw [← hfinal, ← hwhole]
      exact h.busy w y hy
    · exact hstart w _ _ hstarted
  · exact h.shown.fewer fun path hpath bytes hbytes => (hread path hpath).symm.trans hbytes

/-- A party that goes on leaves the runs as they are, -/
@[simp] theorem advance_ran : (d.advance w).ran = d.ran := by cases w <;> rfl

/-- and the files. -/
@[simp] theorem advance_files : (d.advance w).files = d.files := by cases w <;> rfl

/-- So does one that is at nothing any more, -/
@[simp] theorem quit_ran : (d.quit w).ran = d.ran := by cases w <;> rfl

/-- with the files too. -/
@[simp] theorem quit_files : (d.quit w).files = d.files := by cases w <;> rfl

/-- A party leaves its file as it is. -/
theorem Proper.leave (h : d.Proper studio directory) (hstep : d.onFiles (.leave w) = some d') :
    d'.Proper studio directory ∧ d'.files.writers w = none := by
  refine ⟨h.quiet (a := .leave w) trivial rfl hstep fun _ _ _ hstart => absurd hstart (by simp), ?_⟩
  obtain ⟨files, hfiles, rfl⟩ := Option.map_eq_some_iff.mp hstep
  obtain rfl := Option.some.inj hfiles
  exact update_self ..

/-- A party leaves its file as it is, and its work too. -/
theorem Proper.retire (h : d.Proper studio directory)
    (hstep : (d.onFiles (.leave w)).map (Depot.quit w) = some d') :
    d'.Proper studio directory := by
  obtain ⟨e, he, rfl⟩ := Option.map_eq_some_iff.mp hstep
  obtain ⟨hproper, hfree⟩ := h.leave he
  exact hproper.elsewhere hfree quit_files (by rw [quit_ran]; exact hproper.shown)
    (hproper.parties.quit w) fun w' hne => (upNext_other hne).2

/-- A coordinator leaves its file as it is, and goes on to the next. -/
theorem Proper.skip {c : C} (h : d.Proper studio directory)
    (hstep : (d.onFiles (.leave (.clerk c))).map (Depot.advance (.clerk c)) = some d') :
    d'.Proper studio directory := by
  obtain ⟨e, he, rfl⟩ := Option.map_eq_some_iff.mp hstep
  obtain ⟨hproper, hfree⟩ := h.leave he
  exact hproper.elsewhere hfree advance_files (by rw [advance_ran]; exact hproper.shown)
    (hproper.parties.advanceClerk c) fun w' hne => (upNext_other hne).1

/-- A file is put in its place, and its party goes on to the next. -/
theorem Proper.place (h : d.Proper studio directory) (hstep : d.onFiles (.place w) = some d') :
    (d'.advance w).Proper studio directory := by
  obtain ⟨files, hfiles, rfl⟩ := Option.map_eq_some_iff.mp hstep
  obtain ⟨hsound, hread⟩ := h.sound.next tmpName_injective (a := .place w) trivial hfiles
  cases hw : d.files.writers w with
  | none => simp [AtomicFile.Disk.next, hw] at hfiles
  | some x =>
      have heffect : d.files.effect (.place w) d.files.read =
          update d.files.read x.final (some x.whole) := by
        simp [AtomicFile.Disk.effect, hw]
      rw [heffect] at hread
      have hnext := h.parties.upNext (h.busy w x hw)
      have hbusy : ∀ w' y, files.writers w' = some y →
          Depot.upNext studio directory w' (({ d with files := files } : Depot C D T F).advance w) =
            some (y.final, y.whole) := by
        intro w' y hw'
        rcases AtomicFile.Disk.next_writers hfiles hw' with ⟨z, hz, hfinal, hwhole, hplace, -⟩ |
          hstart
        · have hne : w' ≠ w := fun heq => hplace (by rw [heq])
          rw [(upNext_other hne).1, ← hfinal, ← hwhole]
          exact h.busy w' z hz
        · exact absurd hstart (by simp)
      generalize hfinal : x.final = final at hread hnext
      generalize hwhole : x.whole = whole at hread hnext
      cases hnext with
      | table c jobId tables path t rest hclerk hran hmem =>
          have hpath := (files_paths directory jobId tables).subset (List.mem_map_of_mem hmem)
          refine ⟨(h.parties.files fun i job y hi => ?_).advanceClerk c, ?_, hbusy, ?_⟩
          · refine (h.parties.knows i job y hi).congr (fun _ ht => ht) fun name _ size _ => ?_
            rw [hread _ plot_not_tmp, update_of_ne]
            rintro rfl
            exact absurd ((tablePaths_last hpath).symm.trans plotPath_last) (by decide)
          · rw [advance_files]
            exact hsound
          · rw [advance_ran, advance_files]
            exact h.shown.table (h.parties.plain _ _ hran) hran hmem hread
      | figure i jobId tables figures f rest hdrawer hran hdrawn hmem =>
          have hid := h.parties.drawable i jobId _ hdrawer
          have hput := (h.parties.knows i jobId _ hdrawer).put hid hread
          have hparties : Parties studio directory { d with files := files } := by
            refine h.parties.files fun i' job y hi => ?_
            by_cases heq : i' = i
            · subst heq
              obtain ⟨rfl, rfl⟩ := Prod.mk.inj (Option.some.inj (hdrawer.symm.trans hi))
              exact hput.1
            · refine (h.parties.knows i' job y hi).congr (fun _ ht => ht) fun name hname size hsize => ?_
              rw [hread _ plot_not_tmp, update_of_ne]
              intro hpath
              obtain ⟨rfl, -, -⟩ := plotPath_inj (h.parties.drawable i' job y hi) hid hname
                (saves_name hmem).1 hsize (saves_name hmem).2 hpath
              exact heq (h.parties.drawers i' i job y _ hi hdrawer)
          have hadvance : ({ d with files := files } : Depot C D T F).advance (.drawer i) =
              ({ d with files := files } : Depot C D T F).goto i jobId (.saving figures rest) := by
            simp [Depot.advance, Depot.goto, hdrawer, Drawing.advance]
          refine ⟨?_, ?_, hbusy, ?_⟩
          · rw [hadvance]
            exact hparties.goto hdrawer hput.2
          · rw [advance_files]
            exact hsound
          · rw [advance_ran, advance_files]
            exact h.shown.figure hid hran hdrawn hmem hread

/-- A file is taken away. -/
theorem Proper.remove {path : String} (h : d.Proper studio directory)
    (hok : d.Orderly directory (.remove path : DepotAction C D T))
    (hstep : d.onFiles (.remove path) = some d') : d'.Proper studio directory := by
  obtain ⟨files, hfiles, rfl⟩ := Option.map_eq_some_iff.mp hstep
  obtain ⟨hsound, hread⟩ := h.sound.next tmpName_injective (a := .remove path) hok.1 hfiles
  have hread : ∀ name ∉ Set.range tmpName, files.read name = update d.files.read path none name :=
    hread
  refine ⟨h.parties.files fun i jobId x hi => ?_, hsound, fun w x hw => ?_, ?_⟩
  · refine (h.parties.knows i jobId x hi).congr (fun _ ht => ht) fun name _ size _ => ?_
    rw [hread _ plot_not_tmp, update_of_ne (hok.2 i jobId x name size hi).symm]
  · rcases AtomicFile.Disk.next_writers hfiles hw with ⟨y, hy, hfinal, hwhole, -, -⟩ | hstart
    · rw [← hfinal, ← hwhole]
      exact h.busy w y hy
    · exact absurd hstart (by simp)
  · refine h.shown.fewer fun name hname bytes hbytes => ?_
    rw [hread name hname] at hbytes
    by_cases heq : name = path
    · subst heq
      simp at hbytes
    · rwa [update_of_ne heq] at hbytes

/-- **One step.** -/
theorem Proper.next {a : DepotAction C D T} (h : d.Proper studio directory)
    (hfaithful : studio.Faithful) (hok : d.Orderly directory a)
    (hstep : d.next studio directory a = some d') : d'.Proper studio directory := by
  cases a with
  | complete c jobId tables =>
      obtain ⟨hid, hnew⟩ := hok
      have hnone : d.upNext studio directory (.clerk c) = none := by
        simp only [Depot.next] at hstep
        unfold Depot.upNext
        split at hstep <;> simp_all
      obtain rfl : { d with
          ran := update d.ran jobId (some tables)
          clerks := update d.clerks c (some ⟨jobId, tables.files directory jobId⟩) } = d' := by
        simp only [Depot.next] at hstep
        split at hstep
        next => exact absurd hstep (by simp)
        next => exact Option.some.inj hstep
      have hkeep : ∀ job t, d.ran job = some t → update d.ran jobId (some tables) job = some t := by
        intro job t ht
        have hne : job ≠ jobId := by
          rintro rfl
          exact absurd (hnew.symm.trans ht) (by simp)
        rw [update_of_ne hne]
        exact ht
      refine h.elsewhere (h.unoccupied hnone) rfl (h.shown.more hkeep)
        (Parties.setClerk (h.parties.more hid hkeep) fun x hx => ?_) fun w' hne => ?_
      · obtain rfl := Option.some.inj hx
        refine ⟨⟨tables, update_self .., List.suffix_rfl⟩, fun c' y _ hy hjob => ?_⟩
        obtain ⟨t, ht, -⟩ := h.parties.clerk c' y hy
        dsimp only at hjob
        rw [← hjob, hnew] at ht
        exact absurd ht (by simp)
      · cases w' with
        | drawer i => rfl
        | clerk c' =>
            have hc : c' ≠ c := fun heq => hne (congrArg Party.clerk heq)
            simp [Depot.upNext, update_of_ne hc]
  | start w =>
      obtain ⟨⟨path, bytes⟩, hnext, hstep⟩ := Option.bind_eq_some_iff.mp hstep
      have hfree : d.files.writers w = none := by
        cases hw : d.files.writers w with
        | none => rfl
        | some x => simp [onFiles, AtomicFile.Disk.next, hw] at hstep
      refine h.quiet (a := .start w path bytes) (h.apart_start hfree hnext) rfl hstep ?_
      intro w' final whole hstart
      obtain ⟨rfl, rfl, rfl⟩ := FileAction.start.inj hstart
      exact hnext
  | write w n => exact h.quiet (a := .write w n) trivial rfl hstep fun _ _ _ hs => absurd hs (by simp)
  | place w =>
      obtain ⟨e, he, rfl⟩ := Option.map_eq_some_iff.mp hstep
      exact h.place he
  | fail w =>
      cases w with
      | clerk c => exact h.skip hstep
      | drawer i => exact h.retire hstep
  | kill w => exact h.retire hstep
  | draw i jobId =>
      simp only [Depot.next] at hstep
      split at hstep
      next => exact absurd hstep (by simp)
      next hidle =>
        obtain rfl := Option.some.inj hstep
        refine h.onward (by simp [Depot.upNext, hidle]) _ (h.parties.setDrawer fun job x hx => ?_)
        obtain ⟨rfl, rfl⟩ := Prod.mk.inj (Option.some.inj hx)
        exact ⟨hok.1, trivial, fun i' y _ => hok.2 i' y⟩
  | read i =>
      obtain ⟨path, hpath, hstep⟩ := Option.bind_eq_some_iff.mp hstep
      obtain ⟨bytes, hbytes, rfl⟩ := Option.map_eq_some_iff.mp hstep
      have hnone : d.upNext studio directory (.drawer i) = none := upNext_awaited hpath
      split
      next => exact h.onward hnone none (h.parties.quit (.drawer i))
      next t ht =>
        obtain ⟨v, hv, -⟩ := took_same d i t
        have hparties := h.parties.took h.shown hfaithful hpath hbytes ht
        rw [hv] at hparties ⊢
        exact h.onward hnone v hparties
  | missing i =>
      obtain ⟨path, hpath, hstep⟩ := Option.bind_eq_some_iff.mp hstep
      split at hstep
      next => exact absurd hstep (by simp)
      next =>
        obtain rfl := Option.some.inj hstep
        have hnone : d.upNext studio directory (.drawer i) = none := upNext_awaited hpath
        unfold Depot.missed
        split
        next jobId catalog optional x rest hi =>
          obtain ⟨tables, hran, hcatalog, hpart, hrest⟩ := h.parties.knows i jobId _ hi
          exact h.onward hnone _ (h.parties.goto hi
            ⟨tables, hran, hcatalog, hpart, (List.suffix_cons x rest).trans hrest⟩)
        next => exact h.onward hnone none (h.parties.quit (.drawer i))
  | plot i =>
      simp only [Depot.next] at hstep
      split at hstep
      next jobId catalog optional hi =>
        have hnone : d.upNext studio directory (.drawer i) = none := by simp [Depot.upNext, hi]
        obtain ⟨tables, hran, hcatalog, hpart, -⟩ := h.parties.knows i jobId _ hi
        split at hstep
        next =>
          obtain rfl := Option.some.inj hstep
          exact h.onward hnone none (h.parties.quit (.drawer i))
        next figures hplot =>
          obtain rfl := Option.some.inj hstep
          refine h.onward hnone _ (h.parties.goto hi
            ⟨tables, hran, ⟨optional, hpart, hcatalog ▸ hplot⟩, [], rfl, ?_⟩)
          exact fun f hf => absurd hf List.not_mem_nil
      next => exact absurd hstep (by simp)
  | done i =>
      simp only [Depot.next] at hstep
      split at hstep
      next hi =>
        obtain rfl := Option.some.inj hstep
        exact h.onward (by simp [Depot.upNext, hi]) none (h.parties.quit (.drawer i))
      next => exact absurd hstep (by simp)
  | remove path => exact h.remove hok hstep

/-! ### Runs

By induction: everything is in its place in every state of every orderly run, from a directory in
which whatever stands is whole.
-/

/-- A directory as earlier processes left it: nobody is at anything, and what stands in it is
whole. -/
structure Left (studio : Studio T F) (directory : String) (d : Depot C D T F) : Prop where
  clerks : ∀ c, d.clerks c = none
  drawers : ∀ i, d.drawers i = none
  writers : ∀ w, d.files.writers w = none
  plain : ∀ jobId tables, d.ran jobId = some tables → PlainId jobId
  sound : d.files.Sound tmpName
  shown : Shown studio directory d.ran d.files.read

omit [DecidableEq C] [DecidableEq D] in
/-- Nobody is at anything, and what stands is whole, so everything is in its place. -/
theorem Left.proper (h : d.Left studio directory) : d.Proper studio directory := by
  refine ⟨⟨h.plain, ?_, ?_, ?_, ?_, ?_⟩, h.sound, ?_, h.shown⟩
  · exact fun c x hc => absurd ((h.clerks c).symm.trans hc) (by simp)
  · exact fun c _ x _ hc => absurd ((h.clerks c).symm.trans hc) (by simp)
  · exact fun i jobId x hi => absurd ((h.drawers i).symm.trans hi) (by simp)
  · exact fun i _ jobId x _ hi => absurd ((h.drawers i).symm.trans hi) (by simp)
  · exact fun i jobId x hi => absurd ((h.drawers i).symm.trans hi) (by simp)
  · exact fun w x hw => absurd ((h.writers w).symm.trans hw) (by simp)

omit [DecidableEq C] [DecidableEq D] in
/-- A directory with nothing in it is one. -/
theorem left_empty : (empty : Depot C D T F).Left studio directory := by
  refine ⟨fun _ => rfl, fun _ => rfl, fun _ => rfl, fun jobId tables h => absurd h nofun,
    AtomicFile.Disk.sound_empty, ?_, ?_⟩
  · exact fun _ path bytes _ _ h => absurd h (by simp [empty, AtomicFile.Disk.read,
      AtomicFile.Disk.empty])
  · exact fun _ name size bytes _ _ _ h => absurd h (by simp [empty, AtomicFile.Disk.read,
      AtomicFile.Disk.empty])

end Depot

/-- The runs around a stamp directory. -/
def depotSystem [DecidableEq C] [DecidableEq D] (studio : Studio T F) (directory : String) :
    System (Depot C D T F) (DepotAction C D T) where
  init d := d.Left studio directory
  step d a d' := d.next studio directory a = some d'

namespace Depot

variable {d d' : Depot C D T F} [DecidableEq C] [DecidableEq D]

/-- **Every run.** -/
theorem reach_proper (hfaithful : studio.Faithful)
    (h : (depotSystem studio directory).Reach (fun d a _ => d.Orderly directory a) d) :
    d.Proper studio directory :=
  h.invariant (fun _ hinit => hinit.proper) fun _ _ _ hproper hok hstep =>
    hproper.next hfaithful hok hstep

/-- Where a draw is done, each figure it drew stands in its place. -/
theorem Proper.done {i : D} (h : d.Proper studio directory)
    (hstep : d.next studio directory (.done i) = some d') :
    ∃ jobId x tables figures, d.drawers i = some (jobId, x) ∧ d.ran jobId = some tables ∧
      DrawnFrom studio tables figures ∧ ∀ f ∈ saves figures,
        d'.files.read (plotPath directory jobId f.name f.size) =
          some (studio.png f.figure f.size) := by
  simp only [Depot.next] at hstep
  split at hstep
  next jobId figures hi =>
    obtain rfl := Option.some.inj hstep
    obtain ⟨tables, hran, hdrawn, saved, hsplit, hsaved⟩ := h.parties.knows i jobId _ hi
    rw [List.append_nil] at hsplit
    exact ⟨jobId, _, tables, figures, hi, hran, hdrawn, fun f hf => hsaved f (hsplit ▸ hf)⟩
  next => exact absurd hstep (by simp)

end Depot

end DonutServer
