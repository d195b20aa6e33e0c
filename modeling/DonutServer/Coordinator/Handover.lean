/-
What an arm of the loop hands over, and what comes of it.

An arm may complete a run of its own job, and hands its tables over before it replies.
What is put off is then just those, and what is written of it are tables of theirs under
names of theirs, whatever fails on the way.  Over the pipe the arm does what it does in the
plain model.

A table is written long after the run that made it, by code that is told nothing of that run but
what stands in `_DEFERRED`.  So the connection is made in two halves: what an arm leaves in
`_DEFERRED` is its own run's, and what is written is what was left there.
-/
import DonutServer.Coordinator.Deferred

namespace DonutServer

open Effect PyText

variable {S : Stack} {T : Type} {env : Env S}

/-! ### What a run leaves to be written

A job's files have the job's id at the start of their names and differ in what follows it.  The
result table comes first and the selection tables after it, those that the run left.
-/

/-- A job's own tables, by the name each is written under. -/
def Tables.named (jobId : JobId) (tables : Tables T) : List (String × T) :=
  (stampName jobId, tables.table) :: plotTables.filterMap fun x =>
    (tables.selection.get? x.1).map fun subtable => (selectionName jobId x.2, subtable)

/-- The files they go to. -/
def Tables.files (directory : String) (jobId : JobId) (tables : Tables T) : List (String × T) :=
  (tables.named jobId).map fun f => (joinPath directory f.1, f.2)

/-- The job a command runs. -/
def Command.jobId? : Command → Option JobId
  | .push jobId _ _ _ => some jobId
  | .ingest jobId _ _ _ => some jobId
  | _ => none

/-- What a command's arm hands over: the tables of a run that completed, if one did. -/
abbrev Handover (T : Type) := Option (JobId × Tables T)

namespace Handover

/-- It is the command's own run. -/
def Of (command : Command) (handed : Handover T) : Prop :=
  ∀ jobId tables, handed = some (jobId, tables) → command.jobId? = some jobId

def deferred : Handover T → Deferred T
  | none => .empty
  | some (jobId, tables) => .handed jobId tables

def seen : Handover T → List (Seen T)
  | none => []
  | some (jobId, tables) => [.completed jobId tables]

def named : Handover T → List (String × T)
  | none => []
  | some (jobId, tables) => tables.named jobId

end Handover

/-- Names in the stamp directory, if there is one. -/
def placed (directory : Except Exn String) (named : List (String × T)) : List (String × T) :=
  match directory with
  | .error _ => []
  | .ok directory => named.map fun f => (joinPath directory f.1, f.2)

theorem placed_nil (directory : Except Exn String) : placed directory ([] : List (String × T)) = [] := by
  cases directory <;> rfl

theorem placed_append (directory : Except Exn String) (l l' : List (String × T)) :
    placed directory (l ++ l') = placed directory l ++ placed directory l' := by
  cases directory with
  | error exc => rfl
  | ok directory => exact List.map_append

/-- What is noted of files put in place. -/
def noted (writes : List (String × T)) : List (Seen T) := writes.map fun f => .wrote f.1 f.2

namespace Desk

/-! ### Past the tables

Most of the code has nothing to do with the tables.  It is lifted from the plain model as it
stands, and the rules here say that what it touches is the process and nothing else.
-/

theorem ends_within {α : Type} {m : Code S α} {d : Desk S T} {Q : α → Desk S T → Prop}
    {E : Exn → Desk S T → Prop} : Ends (within m) d Q E ↔
      Ends m d.process (fun a p => Q a { d with process := p })
        (fun exc p => E exc { d with process := p }) := by
  have hrun : (within m : Work S T α).outcome d =
      ((m.outcome d.process).1, { d with process := (m.outcome d.process).2 }) := rfl
  unfold Ends
  rw [hrun]
  rcases m.outcome d.process with ⟨_ | _, p⟩ <;> rfl

theorem ends_onPipe {α : Type} {m : Loop S α} {d : Desk S T} {Q : α → Desk S T → Prop}
    {E : Exn → Desk S T → Prop} : Ends (onPipe m) d Q E ↔
      Ends m ⟨d.process, []⟩
        (fun a s => Q a { d with process := s.process, seen := d.seen ++ s.events.map Seen.pipe })
        (fun exc s => E exc
          { d with process := s.process, seen := d.seen ++ s.events.map Seen.pipe }) := by
  have hrun : (onPipe m : Work S T α).outcome d =
      ((m.outcome ⟨d.process, []⟩).1,
        { d with
          process := (m.outcome ⟨d.process, []⟩).2.process
          seen := d.seen ++ (m.outcome ⟨d.process, []⟩).2.events.map Seen.pipe }) := rfl
  unfold Ends
  rw [hrun]
  rcases m.outcome ⟨d.process, []⟩ with ⟨_ | _, s⟩ <;> rfl

/-- Only the process has changed. -/
def Aside (d t : Desk S T) : Prop := t.deferred = d.deferred ∧ t.seen = d.seen

theorem within_aside {α : Type} (m : Code S α) (d : Desk S T) :
    Ends (within m : Work S T α) d (fun _ t => Aside d t) (fun _ t => Aside d t) := by
  rw [ends_within]
  exact .of_forall (fun _ _ => ⟨rfl, rfl⟩) fun _ _ => ⟨rfl, rfl⟩

/-- A send notes its message or raises. -/
theorem send_noted (msg : Msg) (d : Desk S T) :
    Ends (onPipe (send msg) : Work S T Unit) d
      (fun _ t => t.seen = d.seen ++ [.pipe (.sent msg)] ∧ t.deferred = d.deferred ∧
        t.process.toGlobals = d.process.toGlobals)
      (fun _ t => t.seen = d.seen) := by
  rw [ends_onPipe]
  refine (send_ends msg).mono ?_ ?_
  · intro _ s h
    obtain ⟨hevents, hglobals⟩ := h
    refine ⟨?_, rfl, hglobals⟩
    rw [hevents]
    rfl
  · intro _ s hevents
    show d.seen ++ s.events.map Seen.pipe = d.seen
    rw [hevents]
    exact List.append_nil _

/-! ### The arm of a job

`Leaves` says it of all ways out at once, for an arm may stop anywhere.  Until the last act of a
run nothing has been handed over, so the only code to look at is that last act; everything before
it goes by `Leaves.within_bind`.
-/

/-- What an arm has handed over by now. -/
structure Left (command : Command) (d t : Desk S T) (handed : Handover T) : Prop where
  own : handed.Of command
  seen : t.seen = d.seen ++ handed.seen
  deferred : d.deferred = .empty → t.deferred = handed.deferred

theorem Left.nothing {command : Command} {d t : Desk S T} (h : Aside d t) :
    Left command d t none :=
  ⟨nofun, by rw [h.2]; exact (List.append_nil _).symm, fun hd => h.1.trans hd⟩

theorem Left.aside {command : Command} {d t u : Desk S T} {handed : Handover T}
    (h : Left command d t handed) (hu : Aside t u) : Left command d u handed :=
  ⟨h.own, hu.2.trans h.seen, fun hd => hu.1.trans (h.deferred hd)⟩

/-- What went before changed nothing. -/
theorem Left.after {command : Command} {d t u : Desk S T} {handed : Handover T}
    (ht : Aside d t) (h : Left command t u handed) : Left command d u handed :=
  ⟨h.own, by rw [h.seen, ht.2], fun hd => h.deferred (ht.1.trans hd)⟩

/-- However it stops, what it has handed over by then is the command's own. -/
def Leaves {α : Type} (command : Command) (m : Work S T α) : Prop :=
  ∀ d, Ends m d (fun _ t => ∃ handed, Left command d t handed)
    (fun _ t => ∃ handed, Left command d t handed)

theorem Leaves.within {α : Type} (command : Command) (m : Code S α) :
    Leaves command (Desk.within m : Work S T α) := by
  intro d
  exact (within_aside m d).mono (fun _ t ht => ⟨none, .nothing ht⟩) fun _ t ht => ⟨none, .nothing ht⟩

/-- Nothing is handed over before what is put first. -/
theorem Leaves.within_bind {α β : Type} {command : Command} {m : Code S α} {f : α → Work S T β}
    (h : ∀ a, Leaves command (f a)) : Leaves command (Desk.within m >>= f) := by
  intro d
  rw [ends_bind]
  refine (within_aside m d).mono ?_ fun _ t ht => ⟨none, .nothing ht⟩
  intro a t ht
  refine (h a t).mono ?_ ?_
  · intro _ u hu
    obtain ⟨handed, hu⟩ := hu
    exact ⟨handed, hu.after ht⟩
  · intro _ u hu
    obtain ⟨handed, hu⟩ := hu
    exact ⟨handed, hu.after ht⟩

theorem Leaves.get_bind {β : Type} {command : Command} {f : Desk S T → Work S T β}
    (h : ∀ d, Leaves command (f d)) : Leaves command (get >>= f) := by
  intro d
  rw [ends_bind, ends_get]
  exact h d d

/-- What follows may fail with the tables handed over. -/
theorem Leaves.bind_aside {α β : Type} {command : Command} {m : Work S T α} {f : α → Work S T β}
    (h : Leaves command m)
    (hf : ∀ a d, Ends (f a) d (fun _ t => Aside d t) (fun _ t => Aside d t)) :
    Leaves command (m >>= f) := by
  intro d
  rw [ends_bind]
  refine (h d).mono ?_ fun _ _ ht => ht
  intro a t ht
  obtain ⟨handed, ht⟩ := ht
  exact (hf a t).mono (fun _ u hu => ⟨handed, ht.aside hu⟩) fun _ u hu => ⟨handed, ht.aside hu⟩

/-- A run hands its tables over as its last act. -/
theorem runJob_leaves {command : Command} {jobId : JobId} (hjob : command.jobId? = some jobId)
    (exposures : Exposures S) (numWorkers : Option Int) :
    Leaves command (runJob env jobId exposures numWorkers : Work S T JobOutput) := by
  unfold runJob
  refine .within_bind fun r => ?_
  obtain ⟨task, bundle⟩ := r
  refine .get_bind fun d => .within_bind fun result => ?_
  intro t
  rw [ends_bind, ends_modify]
  refine ⟨some (jobId, d.tables task bundle numWorkers), ?_, rfl, fun _ => rfl⟩
  intro jobId' tables heq
  rw [hjob, (Prod.mk.inj (Option.some.inj heq)).1]

/-- **What an arm leaves**, up to the message it sends. -/
theorem body_leaves (env : Env S) (command : Command) :
    Leaves command (body env command : Work S T Msg) := by
  cases command with
  | prepare c => exact .within _ _
  | resolve directory => exact .within _ _
  | shutdown => exact .within _ _
  | other cmd => exact .within _ _
  | push jobId layout numWorkers key =>
      refine .within_bind fun _ => ?_
      refine Leaves.bind_aside ?_ fun _ _ => ⟨rfl, rfl⟩
      exact .within_bind fun exposures => runJob_leaves rfl exposures numWorkers
  | ingest jobId directory numWorkers key =>
      refine .within_bind fun _ => ?_
      refine Leaves.bind_aside ?_ fun _ _ => ⟨rfl, rfl⟩
      refine .get_bind fun d => .within_bind fun exposures => ?_
      refine (runJob_leaves rfl exposures numWorkers).bind_aside fun result d => ?_
      -- Leaving the block may fail, with the tables handed over.
      rw [ends_bind]
      exact within_aside _ d

/-! ### Beside the plain model

The arm and its plain counterpart are the same code but for the last lines, and run in lockstep:
they return together or raise the same, and the process they leave is the same.
-/

/-- The process of the desk is the plain one. -/
def Shows (d : Desk S T) (p : Process S) : Prop := d.process = p

theorem within_lockstep {α : Type} (m : Code S α) :
    Lockstep Shows Eq (within m : Work S T α) m := by
  intro d p h
  rw [← h]
  refine ⟨?_, rfl⟩
  show Alike Eq (m.outcome d.process).1 (m.outcome d.process).1
  exact .refl (fun _ => rfl) _

theorem runJob_lockstep (jobId : JobId) (exposures : Exposures S) (numWorkers : Option Int) :
    Lockstep (Shows (T := T)) Eq (runJob env jobId exposures numWorkers)
      (DonutServer.runJob env jobId exposures numWorkers) := by
  unfold runJob DonutServer.runJob
  refine (within_lockstep _).then' fun quantum => Lockstep.get.bind ?_
  intro d p hd
  rw [← hd]
  refine (within_lockstep _).then' fun result => ?_
  refine (Lockstep.write ?_).then' fun _ => .pure rfl
  intro d p hd
  rw [← hd]
  rfl

/-- **An arm does what it does without tables.** -/
theorem body_lockstep (env : Env S) (command : Command) :
    Lockstep (Shows (T := T)) Eq (body env command) (DonutServer.body env command) := by
  cases command with
  | prepare c => exact within_lockstep _
  | resolve directory => exact within_lockstep _
  | shutdown => exact within_lockstep _
  | other cmd => exact within_lockstep _
  | push jobId layout numWorkers key =>
      refine (within_lockstep _).then' fun _ => ?_
      refine Lockstep.then' ?_ fun result => .pure rfl
      exact (within_lockstep _).then' fun exposures => runJob_lockstep jobId exposures numWorkers
  | ingest jobId directory numWorkers key =>
      refine (within_lockstep _).then' fun _ => ?_
      refine Lockstep.then' (Lockstep.get.bind ?_) fun result => .pure rfl
      intro d p hd
      rw [← hd]
      refine (within_lockstep _).then' fun exposures => ?_
      refine (runJob_lockstep jobId exposures numWorkers).then' fun result => ?_
      exact (within_lockstep _).then' fun _ => .pure rfl

/-! ### A command and its reply

Put together, an arm has sent at most one message.  Where it has sent one, what it handed over was
handed over before that, and it is in the state in which the plain process would be.
-/

/-- An arm that has replied: it handed over `handed` before, and what it sent and what it
leaves in the globals is what the plain process sends and leaves. -/
structure Replied (env : Env S) (command : Command) (d t : Desk S T) (handed : Handover T) :
    Prop where
  own : handed.Of command
  seen : t.seen = d.seen ++ handed.seen ++ [.pipe (.sent (attempt env command d.process).1)]
  deferred : d.deferred = .empty → t.deferred = handed.deferred
  globals : t.process.toGlobals = (attempt env command d.process).2.toGlobals

/-- The message of the plain process, sent from where the plain process stands. -/
theorem Left.replied {command : Command} {d t u : Desk S T} {handed : Handover T} {msg : Msg}
    (h : Left command d t handed) (hmsg : (attempt env command d.process).1 = msg)
    (hglobals : t.process.toGlobals = (attempt env command d.process).2.toGlobals)
    (hu : u.seen = t.seen ++ [.pipe (.sent msg)] ∧ u.deferred = t.deferred ∧
      u.process.toGlobals = t.process.toGlobals) : Replied env command d u handed := by
  obtain ⟨hseen, hdeferred, hkept⟩ := hu
  refine ⟨h.own, ?_, fun hd => hdeferred.trans (h.deferred hd), hkept.trans hglobals⟩
  rw [hseen, h.seen, hmsg]

/-- **An arm sends one reply**, after whatever it hands over, or dies without a word. -/
theorem respond_ends {command : Command} (htried : tried command = true) (d : Desk S T) :
    Ends (respond env command) d (fun _ t => ∃ handed, Replied env command d t handed)
      (fun _ t => ∃ handed : Handover T, handed.Of command ∧ t.seen = d.seen ++ handed.seen) := by
  have hrun : attempt env command d.process = _ := attempt_of_tried htried d.process
  obtain ⟨hval, hprocess⟩ := body_lockstep env command d d.process rfl
  unfold respond
  rw [ends_tryCatch, ends_bind]
  have hbody := (body_leaves env command d).traced
  unfold Shows at hprocess
  refine hbody.mono ?_ ?_
  · intro msg t ht
    obtain ⟨⟨handed, hleft⟩, htrace⟩ := ht
    rw [htrace] at hval hprocess
    generalize (DonutServer.body env command).outcome d.process = r at hval hprocess hrun
    obtain ⟨x, q⟩ := r
    cases hval with
    | ok hmsg =>
        obtain rfl := hmsg
        dsimp only at hprocess hrun
        rw [ends_onPipe]
        unfold send
        rw [ends_bind, ends_offPipe]
        dsimp only
        rw [hprocess]
        unfold Ends
        generalize (fault : Code S Unit).outcome q = r at hrun
        obtain ⟨exc | _, q'⟩ := r
        · -- Sending the message fails, so the failure is sent, with the tables still put off.
          have haside : Aside t { t with process := q', seen := t.seen ++ [] } :=
            ⟨rfl, List.append_nil _⟩
          refine (send_noted (failure command exc) _).mono ?_ ?_
          · intro _ u hu
            exact ⟨handed, (hleft.aside haside).replied (by rw [hrun]) (by rw [hrun]) hu⟩
          · intro _ u hu
            exact ⟨handed, hleft.own, hu.trans (hleft.aside haside).seen⟩
        · have haside : Aside t { t with process := q' } := ⟨rfl, rfl⟩
          exact ⟨handed, (hleft.aside haside).replied (by rw [hrun]) (by rw [hrun]) ⟨rfl, rfl, rfl⟩⟩
  · intro exc t ht
    obtain ⟨⟨handed, hleft⟩, htrace⟩ := ht
    rw [htrace] at hval hprocess
    generalize (DonutServer.body env command).outcome d.process = r at hval hprocess hrun
    obtain ⟨x, q⟩ := r
    cases hval with
    | error =>
        dsimp only at hprocess hrun
        refine (send_noted (failure command exc) t).mono ?_ ?_
        · intro _ u hu
          exact ⟨handed, hleft.replied (by rw [hrun]) (by rw [hrun, hprocess]) hu⟩
        · intro _ u hu
          exact ⟨handed, hleft.own, hu.trans hleft.seen⟩

/-! ### The files

The writing puts its tables in place one after the other, and any of them may fail and be passed
over.  What is written is then a sublist of what was left: nothing new, nothing twice and nothing
out of order.
-/

/-- Some of the named tables have been written, in their order, and nothing else changed. -/
def Writes (env : Env S) (named : List (String × T)) (d t : Desk S T) : Prop :=
  ∃ writes, List.Sublist writes (placed (stampDir env) named) ∧ t.seen = d.seen ++ noted writes ∧
    t.deferred = d.deferred ∧ t.process.toGlobals = d.process.toGlobals

/-- Nothing has been written. -/
theorem Writes.none {named : List (String × T)} {d t : Desk S T} (h : Aside d t)
    (hglobals : t.process.toGlobals = d.process.toGlobals) : Writes env named d t :=
  ⟨[], List.nil_sublist _, by rw [h.2]; exact (List.append_nil _).symm, h.1, hglobals⟩

/-- Some of the first tables, and then some of the others. -/
theorem Writes.append {named named' : List (String × T)} {d t u : Desk S T}
    (h : Writes env named d t) (h' : Writes env named' t u) :
    Writes env (named ++ named') d u := by
  obtain ⟨writes, hsub, hseen, hdeferred, hglobals⟩ := h
  obtain ⟨writes', hsub', hseen', hdeferred', hglobals'⟩ := h'
  refine ⟨writes ++ writes', ?_, ?_, hdeferred'.trans hdeferred, hglobals'.trans hglobals⟩
  · rw [placed_append]
    exact hsub.append hsub'
  · rw [hseen', hseen, List.append_assoc]
    unfold noted
    rw [List.map_append]

/-- A table is written once or not at all, and what goes wrong is swallowed. -/
theorem writeTable_ends (name : String) (table : T) (d : Desk S T) :
    Ends (writeTable env name table) d (fun _ t => Writes env [(name, table)] d t)
      (fun _ _ => False) := by
  have hswallow : ∀ t : Desk S T, Writes env [(name, table)] d t →
      Ends (pure () : Work S T Unit) t (fun _ t => Writes env [(name, table)] d t)
        (fun _ _ => False) := fun _ h => h
  unfold writeTable
  rw [ends_tryCatch, ends_bind, ends_within]
  unfold evaluate
  rw [ends_ofExcept]
  constructor
  · intro directory hdirectory
    rw [ends_bind, ends_within]
    refine fault_ends.mono ?_ ?_
    · intro _ p hp
      obtain ⟨w, rfl⟩ := hp
      have hwrote : ∀ t : Desk S T, t.deferred = d.deferred →
          t.seen = d.seen ++ [.wrote (joinPath directory name) table] →
          t.process.toGlobals = d.process.toGlobals → Writes env [(name, table)] d t := by
        intro t hdeferred hseen hglobals
        refine ⟨[(joinPath directory name, table)], ?_, hseen, hdeferred, hglobals⟩
        rw [hdirectory]
        exact List.Sublist.refl _
      unfold note
      rw [ends_bind, ends_modify, ends_within]
      refine fault_ends.mono ?_ ?_
      · intro _ p hp
        obtain ⟨w, rfl⟩ := hp
        exact hwrote _ rfl rfl rfl
      · intro exc p hp
        obtain ⟨w, rfl⟩ := hp
        exact hswallow _ (hwrote _ rfl rfl rfl)
    · intro exc p hp
      obtain ⟨w, rfl⟩ := hp
      exact hswallow _ (.none ⟨rfl, rfl⟩ rfl)
  · intro exc _
    exact hswallow _ (.none ⟨rfl, rfl⟩ rfl)

/-- Some of the selection tables are written. -/
theorem writeSelections_ends (jobId : JobId) (selection : OrderedDict String T)
    (kinds : List (String × String)) (d : Desk S T) :
    Ends (writeSelections env jobId selection kinds) d
      (fun _ t => Writes env (kinds.filterMap fun x =>
        (selection.get? x.1).map fun subtable => (selectionName jobId x.2, subtable)) d t)
      (fun _ _ => False) := by
  induction kinds generalizing d with
  | nil => exact Writes.none ⟨rfl, rfl⟩ rfl
  | cons x rest ih =>
      obtain ⟨name, kind⟩ := x
      unfold writeSelections
      rw [List.filterMap_cons]
      dsimp only
      cases selection.get? name with
      | none => exact ih d
      | some subtable =>
          dsimp only [Option.map_some]
          rw [ends_bind]
          refine (writeTable_ends _ subtable d).mono ?_ fun _ _ h => h
          intro _ t ht
          refine (ih t).mono ?_ fun _ _ h => h
          intro _ u hu
          exact ht.append hu

/-- **The work put off is the last run's own**, and it leaves nothing put off. -/
theorem runDeferred_ends {handed : Handover T} {d : Desk S T}
    (h : d.deferred = handed.deferred) :
    Ends (runDeferred env) d
      (fun _ t => (∃ writes, List.Sublist writes (placed (stampDir env) handed.named) ∧
          t.seen = d.seen ++ noted writes) ∧ t.deferred = .empty ∧
        t.process.toGlobals = { d.process.toGlobals with deferred := none })
      (fun _ t => t.seen = d.seen) := by
  unfold runDeferred
  rw [ends_bind, ends_get, ends_bind, ends_modify, ends_bind, ends_within]
  refine fault_ends.mono ?_ fun _ _ _ => rfl
  intro _ p hp
  obtain ⟨w, rfl⟩ := hp
  cases handed with
  | none =>
      rw [h]
      refine ⟨⟨[], List.nil_sublist _, ?_⟩, rfl, rfl⟩
      exact (List.append_nil _).symm
  | some job =>
      obtain ⟨jobId, tables⟩ := job
      rw [h]
      dsimp only [Handover.deferred, Deferred.handed, Option.getD_some]
      rw [ends_bind]
      refine (writeTable_ends _ _ _).mono ?_ fun _ _ h => h.elim
      intro _ t ht
      rw [ends_bind]
      refine (writeSelections_ends jobId tables.selection plotTables t).mono ?_ fun _ _ h => h.elim
      intro _ u hu
      obtain ⟨writes, hsub, hseen, -, hglobals⟩ := ht.append hu
      exact ⟨⟨writes, hsub, hseen⟩, rfl, hglobals⟩

end Desk

end DonutServer
