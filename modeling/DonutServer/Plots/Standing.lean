/-
What stands in the stamp directory goes on standing.

The steps around the directory fall into a few kinds, by what they change: the runs, the files, or
where one draw has got to.  The figures of a job stay what they are unless somebody draws the job
again or takes one of them away.
-/
import DonutServer.Plots.Whole

namespace DonutServer

open AtomicFile Function

variable {C D T F : Type} {studio : Studio T F} {directory : String} {jobId : JobId}

/-- Who takes a step around the directory. -/
def DepotAction.party : DepotAction C D T → Option (Party C D)
  | .complete c _ _ => some (.clerk c)
  | .start w | .write w _ | .place w | .fail w | .kill w => some w
  | .draw i _ | .read i | .missing i | .plot i | .done i => some (.drawer i)
  | .remove _ => none

namespace Depot

variable {d d' : Depot C D T F}

/-- The figures of a job are all in their places, drawn from the tables of its own run. -/
def Stands (studio : Studio T F) (directory : String) (d : Depot C D T F) (jobId : JobId) : Prop :=
  ∃ tables figures, d.ran jobId = some tables ∧ DrawnFrom studio tables figures ∧
    ∀ f ∈ saves figures, d.files.read (plotPath directory jobId f.name f.size) =
      some (studio.png f.figure f.size)

/-! ### What a step can do

Of the many steps there are around the directory only a few kinds matter to the figures of one job:
those that draw it, those that put a file in place and those that take one away.
-/

variable [DecidableEq C] [DecidableEq D] {a : DepotAction C D T} {i : D}

/-- The steps around the directory, by what they change: the runs, the files and who is at work
on them, or where one draw has got to. -/
inductive Moves (studio : Studio T F) (directory : String) (d : Depot C D T F) :
    DepotAction C D T → Depot C D T F → Prop
  | complete (c : C) (job : JobId) (tables : Tables T) (clerks : C → Option (Clerk T)) :
      Moves studio directory d (.complete c job tables)
        { d with ran := update d.ran job (some tables), clerks := clerks }
  | files (a : DepotAction C D T) (fa : FileAction (Party C D) String UInt8)
      (files : AtomicFile.Disk (Party C D) String UInt8)
      (hfiles : d.files.next tmpName fa = some files)
      (ha : (∃ w final whole, a = .start w ∧ fa = .start w final whole ∧
          d.upNext studio directory w = some (final, whole)) ∨
        (∃ w n, a = .write w n ∧ fa = .write w n) ∨ ∃ path, a = .remove path ∧ fa = .remove path) :
      Moves studio directory d a { d with files := files }
  | place (w : Party C D) (files : AtomicFile.Disk (Party C D) String UInt8)
      (hfiles : d.files.next tmpName (.place w) = some files) :
      Moves studio directory d (.place w) (advance w { d with files := files })
  | skip (c : C) (files : AtomicFile.Disk (Party C D) String UInt8)
      (hfiles : d.files.next tmpName (.leave (.clerk c)) = some files) :
      Moves studio directory d (.fail (.clerk c)) (advance (.clerk c) { d with files := files })
  | retire (w : Party C D) (a : DepotAction C D T)
      (files : AtomicFile.Disk (Party C D) String UInt8)
      (hfiles : d.files.next tmpName (.leave w) = some files)
      (ha : a = .kill w ∨ a = .fail w ∧ ∃ i, w = .drawer i) :
      Moves studio directory d a (quit w { d with files := files })
  | drawer (i : D) (a : DepotAction C D T) (v : Option (JobId × Drawing T F))
      (hparty : a.party = some (.drawer i)) (hv : ∀ job x, v = some (job, x) →
        (∃ y, d.drawers i = some (job, y)) ∨ a = .draw i job ∧ d.drawers i = none) :
      Moves studio directory d a { d with drawers := update d.drawers i v }

/-- A step on the files changes nothing but them. -/
theorem onFiles_eq {fa : FileAction (Party C D) String UInt8} (h : d.onFiles fa = some d') :
    ∃ files, d.files.next tmpName fa = some files ∧ d' = { d with files := files } := by
  obtain ⟨files, hfiles, rfl⟩ := Option.map_eq_some_iff.mp h
  exact ⟨files, hfiles, rfl⟩

/-- The inversion lemma. -/
theorem next_moves (h : d.next studio directory a = some d') : d.Moves studio directory a d' := by
  cases a with
  | complete c job tables =>
      simp only [Depot.next] at h
      split at h
      next => exact absurd h (by simp)
      next =>
        obtain rfl := Option.some.inj h
        exact .complete c job tables _
  | start w =>
      obtain ⟨⟨final, whole⟩, hnext, h⟩ := Option.bind_eq_some_iff.mp h
      obtain ⟨files, hfiles, rfl⟩ := onFiles_eq h
      exact .files _ _ files hfiles (Or.inl ⟨w, final, whole, rfl, rfl, hnext⟩)
  | write w n =>
      obtain ⟨files, hfiles, rfl⟩ := onFiles_eq h
      exact .files _ _ files hfiles (Or.inr (Or.inl ⟨w, n, rfl, rfl⟩))
  | remove path =>
      obtain ⟨files, hfiles, rfl⟩ := onFiles_eq h
      exact .files _ _ files hfiles (Or.inr (Or.inr ⟨path, rfl, rfl⟩))
  | place w =>
      simp only [Depot.next] at h
      obtain ⟨e, he, rfl⟩ := Option.map_eq_some_iff.mp h
      obtain ⟨files, hfiles, rfl⟩ := onFiles_eq he
      exact .place w files hfiles
  | kill w =>
      simp only [Depot.next] at h
      obtain ⟨e, he, rfl⟩ := Option.map_eq_some_iff.mp h
      obtain ⟨files, hfiles, rfl⟩ := onFiles_eq he
      exact .retire w _ files hfiles (Or.inl rfl)
  | fail w =>
      cases w with
      | clerk c =>
          simp only [Depot.next] at h
          obtain ⟨e, he, rfl⟩ := Option.map_eq_some_iff.mp h
          obtain ⟨files, hfiles, rfl⟩ := onFiles_eq he
          exact .skip c files hfiles
      | drawer i =>
          simp only [Depot.next] at h
          obtain ⟨e, he, rfl⟩ := Option.map_eq_some_iff.mp h
          obtain ⟨files, hfiles, rfl⟩ := onFiles_eq he
          exact .retire (.drawer i) _ files hfiles (Or.inr ⟨rfl, i, rfl⟩)
  | draw i job =>
      simp only [Depot.next] at h
      split at h
      next => exact absurd h (by simp)
      next hidle =>
        obtain rfl := Option.some.inj h
        refine .drawer i _ _ rfl fun job' x hx => Or.inr ⟨?_, hidle⟩
        rw [(Prod.mk.inj (Option.some.inj hx)).1]
  | read i =>
      obtain ⟨path, -, h⟩ := Option.bind_eq_some_iff.mp h
      obtain ⟨bytes, -, rfl⟩ := Option.map_eq_some_iff.mp h
      split
      next => exact .drawer i _ none rfl fun job x hx => absurd hx (by simp)
      next t ht =>
        obtain ⟨v, hv, hsame⟩ := took_same d i t
        rw [hv]
        exact .drawer i _ v rfl fun job x hx => Or.inl (hsame job x hx)
  | missing i =>
      obtain ⟨path, -, h⟩ := Option.bind_eq_some_iff.mp h
      split at h
      next => exact absurd h (by simp)
      next =>
        obtain rfl := Option.some.inj h
        obtain ⟨v, hv, hsame⟩ := missed_same d i
        rw [hv]
        exact .drawer i _ v rfl fun job x hx => Or.inl (hsame job x hx)
  | plot i =>
      simp only [Depot.next] at h
      split at h
      next job catalog optional hi =>
        split at h
        next =>
          obtain rfl := Option.some.inj h
          exact .drawer i _ none rfl fun job x hx => absurd hx (by simp)
        next figures hplot =>
          obtain rfl := Option.some.inj h
          exact .drawer i _ _ rfl fun job' x hx => Or.inl (same_job hi hx)
      next => exact absurd h (by simp)
  | done i =>
      simp only [Depot.next] at h
      split at h
      next hi =>
        obtain rfl := Option.some.inj h
        exact .drawer i _ none rfl fun job x hx => absurd hx (by simp)
      next => exact absurd h (by simp)

/-! ### What a step leaves as it was

For each part of the depot one lemma says when it stays.  What the places read as is the part that
counts, and a file is put or taken away by the steps on the files alone.
-/

/-- A job stays run. -/
theorem Moves.ran {tables : Tables T} (h : d.Moves studio directory a d') (hok : d.Orderly directory a)
    (hran : d.ran jobId = some tables) : d'.ran jobId = some tables := by
  cases h with
  | complete c job t clerks =>
      have hne : jobId ≠ job := by
        rintro rfl
        exact absurd (hok.2.symm.trans hran) (by simp)
      exact (update_of_ne hne _ _).trans hran
  | files | drawer => exact hran
  | place | skip =>
      rw [advance_ran]
      exact hran
  | retire =>
      rw [quit_ran]
      exact hran

/-- A draw is not touched by another's step. -/
theorem Moves.drawers_other (h : d.Moves studio directory a d') (hparty : a.party ≠ some (.drawer i)) :
    d'.drawers i = d.drawers i := by
  have hne : ∀ {w : Party C D}, a.party = some w → Party.drawer i ≠ w :=
    fun hw heq => hparty (by rw [hw, heq])
  cases h with
  | complete | files => rfl
  | skip => rfl
  | place w =>
      cases w with
      | clerk c => rfl
      | drawer j =>
          have hij : i ≠ j := fun heq => hne rfl (congrArg Party.drawer heq)
          exact update_of_ne hij _ _
  | retire w a files hfiles ha =>
      cases w with
      | clerk c => rfl
      | drawer j =>
          have hij : i ≠ j := by
            rcases ha with rfl | ⟨rfl, -⟩ <;> exact fun heq => hne rfl (congrArg Party.drawer heq)
          exact update_of_ne hij _ _
  | drawer j a v hj =>
      have hij : i ≠ j := fun heq => hne hj (congrArg Party.drawer heq)
      exact update_of_ne hij _ _

/-- A draw stays at its job, and only `draw` begins one. -/
theorem Moves.drawers_same {x : Drawing T F} (h : d.Moves studio directory a d')
    (hdraw : ∀ job, a ≠ .draw i job) (hx : d'.drawers i = some (jobId, x)) :
    ∃ y, d.drawers i = some (jobId, y) := by
  by_cases hparty : a.party = some (.drawer i)
  · cases h with
    | complete => exact ⟨x, hx⟩
    | files => exact ⟨x, hx⟩
    | skip => exact ⟨x, hx⟩
    | place w =>
        obtain rfl := Option.some.inj hparty
        have hx : update d.drawers i ((d.drawers i).map fun x => (x.1, x.2.advance)) i =
          some (jobId, x) := hx
        rw [update_self] at hx
        obtain ⟨⟨job, y⟩, hy, heq⟩ := Option.map_eq_some_iff.mp hx
        obtain rfl := (Prod.mk.inj heq).1
        exact ⟨y, hy⟩
    | retire w a files hfiles ha =>
        have hw : w = .drawer i := by
          rcases ha with rfl | ⟨rfl, -⟩ <;> exact Option.some.inj hparty
        subst hw
        have hx : update d.drawers i none i = some (jobId, x) := hx
        rw [update_self] at hx
        exact absurd hx (by simp)
    | drawer j a v hj hv =>
        obtain rfl := Party.drawer.inj (Option.some.inj (hj.symm.trans hparty))
        have hx : update d.drawers j v j = some (jobId, x) := hx
        rw [update_self] at hx
        rcases hv jobId x hx with hbefore | ⟨rfl, -⟩
        · exact hbefore
        · exact absurd rfl (hdraw jobId)
  · rw [h.drawers_other hparty] at hx
    exact ⟨x, hx⟩

/-- **What the places read as** changes where a file is put or taken away. -/
theorem Proper.next_read {path : String} (h : d.Proper studio directory)
    (hok : d.Orderly directory a) (hm : d.Moves studio directory a d')
    (hpath : path ∉ Set.range tmpName) : d'.files.read path = d.files.read path ∨
      a = .remove path ∨ ∃ w bytes, a = .place w ∧ d.UpNext studio directory w path bytes := by
  have hleft : ∀ {w : Party C D} {files}, d.files.next tmpName (.leave w) = some files →
      files.read path = d.files.read path := by
    intro w files hfiles
    exact (h.sound.next tmpName_injective (a := .leave w) trivial hfiles).2 path hpath
  cases hm with
  | complete | drawer => exact Or.inl rfl
  | skip c files hfiles =>
      rw [advance_files]
      exact Or.inl (hleft hfiles)
  | retire w a files hfiles ha =>
      rw [quit_files]
      exact Or.inl (hleft hfiles)
  | files a fa files hfiles ha =>
      rcases ha with ⟨w, final, whole, rfl, rfl, hnext⟩ | ⟨w, n, rfl, rfl⟩ | ⟨other, rfl, rfl⟩
      · have hfree : d.files.writers w = none := by
          cases hw : d.files.writers w with
          | none => rfl
          | some x => simp [AtomicFile.Disk.next, hw] at hfiles
        exact Or.inl ((h.sound.next tmpName_injective (h.apart_start hfree hnext) hfiles).2 path hpath)
      · exact Or.inl ((h.sound.next tmpName_injective (a := .write w n) trivial hfiles).2 path hpath)
      · have hread := (h.sound.next tmpName_injective (a := .remove other) hok.1 hfiles).2 path hpath
        by_cases heq : path = other
        · subst heq
          exact Or.inr (Or.inl rfl)
        · exact Or.inl (hread.trans (update_of_ne heq _ _))
  | place w files hfiles =>
      rw [advance_files]
      have hread := (h.sound.next tmpName_injective (a := .place w) trivial hfiles).2 path hpath
      cases hw : d.files.writers w with
      | none => simp [AtomicFile.Disk.next, hw] at hfiles
      | some x =>
          simp only [AtomicFile.Disk.effect, hw] at hread
          by_cases heq : path = x.final
          · subst heq
            exact Or.inr (Or.inr ⟨w, x.whole, rfl, h.parties.upNext (h.busy w x hw)⟩)
          · exact Or.inl (hread.trans (update_of_ne heq _ _))

/-- **What stands goes on standing** while nobody draws the job and nobody takes its figures
away. -/
theorem Stands.next (h : d.Stands studio directory jobId) (hproper : d.Proper studio directory)
    (hid : PlotQueue.jobIdOk jobId = true) (hok : d.Orderly directory a)
    (hkept : ∀ name size, a ≠ .remove (plotPath directory jobId name size))
    (hnone : ∀ i x, d.drawers i ≠ some (jobId, x)) (hstep : d.next studio directory a = some d') :
    d'.Stands studio directory jobId := by
  obtain ⟨tables, figures, hran, hdrawn, hread⟩ := h
  have hm := next_moves hstep
  refine ⟨tables, figures, hm.ran hok hran, hdrawn, fun f hf => ?_⟩
  have hplace : plotPath directory jobId f.name f.size ∉ Set.range tmpName := plot_not_tmp
  rcases hproper.next_read hok hm hplace with hsame | hremove | ⟨w, bytes, -, hnext⟩
  · rw [hsame]
    exact hread f hf
  · exact absurd hremove (hkept f.name f.size)
  · generalize hp : plotPath directory jobId f.name f.size = path at hnext
    cases hnext with
    | table c job t path t' rest hclerk hran' hmem =>
        have hpath := (files_paths directory job t).subset (List.mem_map_of_mem hmem)
        rw [← hp] at hpath
        exact absurd ((tablePaths_last hpath).symm.trans plotPath_last) (by decide)
    | figure i job t figures' g rest hdrawer hran' hdrawn' hmem =>
        obtain ⟨rfl, -, -⟩ := plotPath_inj hid (hproper.parties.drawable i job _ hdrawer)
          (saves_name hf).1 (saves_name hmem).1 (saves_name hf).2 (saves_name hmem).2 hp
        exact absurd hdrawer (hnone i _)

end Depot

end DonutServer
