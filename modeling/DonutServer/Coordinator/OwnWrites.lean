/-
Every table file is written by the run that made the table.

A write stands where it does because of what was seen before it: the command of its job, the
run of that job coming to its end, its reply, and then nothing but the run's other files.
That is `WrittenBy`, and every run of a process is grounded in it.  Job ids that have neither
a dot nor a slash in them, as ids made by `uuid4` have not, name different files, so each
job's files hold its own runs' tables only.
-/
import DonutServer.Coordinator.Handled
import DonutServer.Coordinator.Isolation
import DonutServer.Lib.Trace

namespace DonutServer

open Effect PyText Trace

variable {S : Stack} {T : Type} {env : Env S}

/-! ### The files of a job

A file's name is the job's id with an ending behind it, and every ending starts with a dot.  An id
that has no dot can therefore be read off the name, and one that has no slash stays in the stamp
directory; such ids share no file.
-/

/-- What follows the job id in the names of its table files. -/
def tableEndings : List String := ".parquet" :: plotTables.map fun x => "." ++ x.2 ++ ".parquet"

/-- The paths of a job's table files. -/
def tablePaths (directory : String) (jobId : JobId) : List String :=
  tableEndings.map fun ending => joinPath directory (jobId ++ ending)

theorem head?_tableEnding {ending : String} (h : ending ∈ tableEndings) :
    ending.toList.head? = some '.' := by
  revert ending
  decide

/-- Of one job each ending makes a path of its own. -/
theorem tablePath_inj {directory : String} {jobId : JobId} {ending ending' : String}
    (h : ending ∈ tableEndings) (h' : ending' ∈ tableEndings)
    (heq : joinPath directory (jobId ++ ending) = joinPath directory (jobId ++ ending')) :
    ending = ending' := by
  refine (String.append_right_inj jobId).mp (joinPath_inj heq ?_)
  rw [String.toList_append, String.toList_append, List.head?_append, List.head?_append,
    head?_tableEnding h, head?_tableEnding h']

theorem nodup_tablePaths (directory : String) (jobId : JobId) :
    (tablePaths directory jobId).Nodup := by
  unfold tablePaths
  refine List.Nodup.map_on ?_ (by decide)
  intro ending h ending' h' heq
  exact tablePath_inj h h' heq

/-- What is kept of a list goes where all of it would. -/
theorem filterMap_sublist_map {α β : Type} {f : α → β} {g : α → Option β}
    (h : ∀ a b, g a = some b → b = f a) (l : List α) : (l.filterMap g).Sublist (l.map f) := by
  induction l with
  | nil => exact .slnil
  | cons a rest ih =>
      rw [List.filterMap_cons, List.map_cons]
      cases hg : g a with
      | none => exact ih.cons _
      | some b =>
          rw [h a b hg]
          exact ih.cons_cons _

/-- The tables of a run go to files of its job, each to another one. -/
theorem files_paths (directory : String) (jobId : JobId) (tables : Tables T) :
    ((tables.files directory jobId).map Prod.fst).Sublist (tablePaths directory jobId) := by
  unfold Tables.files Tables.named tablePaths tableEndings
  rw [List.map_map, List.map_cons, List.map_cons]
  refine List.Sublist.cons_cons _ ?_
  rw [List.map_filterMap, List.map_map]
  refine filterMap_sublist_map ?_ plotTables
  intro x path hpath
  obtain ⟨f, hf, rfl⟩ := Option.map_eq_some_iff.mp hpath
  obtain ⟨subtable, -, rfl⟩ := Option.map_eq_some_iff.mp hf
  show joinPath directory (jobId ++ ("." ++ x.2) ++ ".parquet") = _
  rw [String.append_assoc]
  rfl

/-- An id without dots and slashes. -/
def PlainId (jobId : JobId) : Prop := ∀ c ∈ jobId.toList, c ≠ '.' ∧ c ≠ '/'

instance (jobId : JobId) : Decidable (PlainId jobId) := List.decidableBAll _ _

/-- Plain ids share no file. -/
theorem plainId_inj {directory path : String} {jobId jobId' : JobId} (hplain : PlainId jobId)
    (hplain' : PlainId jobId') (h : path ∈ tablePaths directory jobId)
    (h' : path ∈ tablePaths directory jobId') : jobId = jobId' := by
  obtain ⟨ending, hending, rfl⟩ := List.mem_map.mp h
  obtain ⟨ending', hending', heq⟩ := List.mem_map.mp h'
  have hslash : ∀ {j e : String}, PlainId j → e ∈ tableEndings → '/' ∉ (j ++ e).toList := by
    intro j e hj he hc
    rw [String.toList_append] at hc
    rcases List.mem_append.mp hc with hc | hc
    · exact (hj _ hc).2 rfl
    · have hnone : ∀ e ∈ tableEndings, '/' ∉ e.toList := by decide
      exact hnone e he hc
  have hstem : ∀ {j e : String}, PlainId j → e ∈ tableEndings →
      (j ++ e).toList.takeWhile (· ≠ '.') = j.toList := by
    intro j e hj he
    have hstops : ∀ e ∈ tableEndings, e.toList.takeWhile (· ≠ '.') = [] := by decide
    rw [String.toList_append, List.takeWhile_append_of_pos fun c hc => by simpa using (hj c hc).1,
      hstops e he, List.append_nil]
  have hname := joinPath_inj_plain heq (hslash hplain' hending') (hslash hplain hending)
  refine String.toList_inj.mp ?_
  rw [← hstem hplain hending, ← hname, hstem hplain' hending']

/-- The tables of a run go to files of their own. -/
theorem nodup_files (directory : String) (jobId : JobId) (tables : Tables T) :
    ((tables.files directory jobId).map Prod.fst).Nodup :=
  (nodup_tablePaths directory jobId).sublist (files_paths directory jobId tables)

/-! ### What a write rests on

`WrittenBy` is about what was seen before a write, and what was seen only grows at its end.  So it
is enough to look at each write when it is made; the runs of the loop say what had been seen then.
-/

/-- The write of a table after `before`: the command of the job, its run come to its end, the
reply, and since then nothing but other files of that run, stand last in it. -/
def WrittenBy (env : Env S) (jobId : JobId) (before : List (Seen T)) (path : String) (table : T) :
    Prop :=
  ∃ earlier command tables msg writes directory, command.jobId? = some jobId ∧
    stampDir env = .ok directory ∧
    before = earlier ++ [.pipe (.received command), .completed jobId tables, .pipe (.sent msg)] ++
      noted writes ∧
    List.Sublist (writes ++ [(path, table)]) (tables.files directory jobId) ∧
    path ∉ writes.map Prod.fst

/-- Nothing is put off while the loop waits, and no table is written but by its own run. -/
def Rightful (env : Env S) (before : List (Seen T)) : Seen T → Prop
  | .waits deferred => deferred = .empty
  | .wrote path table => ∃ jobId, WrittenBy env jobId before path table
  | _ => True

/-- The writes of one run, from any point among them. -/
theorem noted_rightful {command : Command} {jobId : JobId} {tables : Tables T}
    {directory : String} (msg : Msg) (hjob : command.jobId? = some jobId)
    (hdirectory : stampDir env = .ok directory) (earlier : List (Seen T))
    (past writes : List (String × T))
    (h : List.Sublist (past ++ writes) (tables.files directory jobId)) :
    Grounded (Rightful env)
      (earlier ++ [.pipe (.received command), .completed jobId tables, .pipe (.sent msg)] ++
        noted past) (noted writes) := by
  induction writes generalizing past with
  | nil => trivial
  | cons f rest ih =>
      have hsplit : past ++ f :: rest = (past ++ [f]) ++ rest := by
        rw [List.append_assoc, List.singleton_append]
      have hnodup : ((past ++ f :: rest).map Prod.fst).Nodup :=
        (nodup_files directory jobId tables).sublist (h.map Prod.fst)
      rw [hsplit] at h
      constructor
      · refine ⟨jobId, earlier, command, tables, msg, past, directory, hjob, hdirectory, rfl, ?_, ?_⟩
        · exact (List.sublist_append_left _ _).trans h
        · intro hmem
          rw [List.map_append, List.map_cons] at hnodup
          exact (List.nodup_append.mp hnodup).2.2 f.1 hmem f.1 (List.mem_cons_self ..) rfl
      · have hnext := ih (past ++ [f]) h
        unfold noted at hnext ⊢
        rw [List.map_append, ← List.append_assoc] at hnext
        exact hnext

/-- **Whatever happens, what is seen is rightful.** -/
theorem Desk.Handled.rightful {mem : Globals S} {incoming : List (Arrival S T)}
    {seen : List (Seen T)} (h : Desk.Handled env mem incoming seen) (done : List (Seen T)) :
    Grounded (Rightful env) done seen := by
  induction h generalizing done with
  | stop => trivial
  | waiting => exact ⟨rfl, trivial⟩
  | @unanswered mem a rest handed hown =>
      refine ⟨rfl, trivial, ?_⟩
      cases handed with
      | none => trivial
      | some job => exact ⟨trivial, trivial⟩
  | @answered mem mem' a rest msg handed writes seen hown hrun hwrites hseen ih =>
      rw [grounded_append, grounded_append, grounded_append, grounded_append]
      refine ⟨⟨⟨⟨⟨rfl, trivial, trivial⟩, ?_⟩, trivial, trivial⟩, ?_⟩, ih _⟩
      · cases handed with
        | none => trivial
        | some job => exact ⟨trivial, trivial⟩
      · cases handed with
        | none =>
            rw [Handover.named, placed_nil] at hwrites
            rw [List.sublist_nil.mp hwrites]
            trivial
        | some job =>
            obtain ⟨jobId, tables⟩ := job
            rcases hdirectory : stampDir env with exc | directory
            · rw [hdirectory] at hwrites
              rw [List.sublist_nil.mp hwrites]
              trivial
            · rw [hdirectory] at hwrites
              have hrightful := noted_rightful msg (hown jobId tables rfl) hdirectory
                (done ++ [.waits .empty]) [] writes hwrites
              have hdone : done ++ ([.waits .empty, .pipe (.received a.command)] ++
                    Handover.seen (some (jobId, tables)) ++ [.pipe (.sent msg)]) =
                  done ++ [.waits .empty] ++ [.pipe (.received a.command),
                    .completed jobId tables, .pipe (.sent msg)] ++ noted [] := by
                simp [Handover.seen, noted]
              rw [hdone]
              exact hrightful

/-- Only commands that arrive are taken in. -/
theorem Served.received {mem : Globals S} {incoming : List (Command × World S)}
    {events : List PipeEvent} (h : Served env mem incoming events) {command : Command}
    (hmem : .received command ∈ events) : command ∈ incoming.map Prod.fst := by
  induction h with
  | stop => exact absurd hmem List.not_mem_nil
  | unanswered =>
      rw [PipeEvent.received.inj (List.mem_singleton.mp hmem)]
      exact List.mem_cons_self ..
  | @answered mem command' world rest msg mem' events hrun hserved ih =>
      rcases List.mem_cons.mp hmem with heq | hmem
      · rw [PipeEvent.received.inj heq]
        exact List.mem_cons_self ..
      · rcases List.mem_cons.mp hmem with heq | hmem
        · exact PipeEvent.noConfusion heq
        · have hrest := ih hmem
          split at hrest
          · exact absurd hrest List.not_mem_nil
          · exact List.mem_cons_of_mem _ hrest

theorem Speaks.received {incoming : List (Command × World S)} {events : List PipeEvent}
    (h : Speaks env incoming events) {command : Command} (hmem : .received command ∈ events) :
    command ∈ incoming.map Prod.fst := by
  cases h with
  | silent => exact absurd hmem List.not_mem_nil
  | fatal error => exact PipeEvent.noConfusion (List.mem_singleton.mp hmem)
  | hello hserved =>
      rcases List.mem_cons.mp hmem with heq | hmem
      · exact PipeEvent.noConfusion heq
      · exact hserved.received hmem

/-- What is seen of a whole process is rightful. -/
theorem coordinatorMain_rightful (env : Env S) (incoming : List (Arrival S T)) (world : World S)
    (tables : S.Task → QuantumBundle S → Option Int → Tables T) :
    Grounded (Rightful env) []
      ((Desk.coordinatorMain env incoming).outcome (.started world tables)).2.seen := by
  have h := Desk.coordinatorMain_opens env incoming world tables
  generalize ((Desk.coordinatorMain env incoming).outcome (.started world tables)).2.seen = seen
    at h ⊢
  cases h with
  | silent => trivial
  | fatal error => exact ⟨trivial, trivial⟩
  | hello h => exact ⟨trivial, h.rightful _⟩

/-- **Deferred writes belong to their run.**  Whatever commands a process is given, whatever
goes wrong and however far it has got: `_DEFERRED` is empty whenever the loop waits, and
every table was put in place by the run that made it, after the reply and no second time.
And where job ids are plain, a job's table files are written by no run but its own. -/
theorem deferred_writes_own (env : Env S) (incoming : List (Arrival S T)) (world : World S)
    (tables : S.Task → QuantumBundle S → Option Int → Tables T) :
    ∀ seen, seen <+: ((Desk.coordinatorMain env incoming).outcome (.started world tables)).2.seen →
      (∀ deferred, .waits deferred ∈ seen → deferred = .empty) ∧
      (∀ before path table after, seen = before ++ .wrote path table :: after →
        ∃ jobId, WrittenBy env jobId before path table) ∧
      ((∀ a ∈ incoming, ∀ jobId, a.command.jobId? = some jobId → PlainId jobId) →
        ∀ directory jobId, stampDir env = .ok directory → PlainId jobId →
          ∀ path ∈ tablePaths directory jobId, ∀ before table after,
            seen = before ++ .wrote path table :: after →
              WrittenBy env jobId before path table) := by
  intro seen hseen
  have hrightful := (coordinatorMain_rightful env incoming world tables).cut hseen
  have hwritten : ∀ before path table after, seen = before ++ .wrote path table :: after →
      ∃ jobId, WrittenBy env jobId before path table := by
    intro before path table after heq
    rw [heq] at hrightful
    exact hrightful.at
  refine ⟨?_, hwritten, ?_⟩
  · intro deferred hmem
    obtain ⟨before, after, heq⟩ := List.append_of_mem hmem
    rw [heq] at hrightful
    exact hrightful.at
  · intro hplain directory jobId hdirectory hjob path hpath before table after heq
    obtain ⟨jobId', hby⟩ := hwritten before path table after heq
    obtain ⟨earlier, command, tables', msg, writes, directory', hcommand, hdirectory', hbefore,
      hsub, -⟩ := id hby
    obtain rfl := Except.ok.inj (hdirectory.symm.trans hdirectory')
    have hreceived : .pipe (.received command) ∈ seen := by
      rw [heq, hbefore]
      simp
    have harrived : ∃ a ∈ incoming, a.command = command := by
      have hspeaks := Desk.coordinatorMain_speaks env incoming world tables
      have hpiped := Desk.mem_piped (hseen.subset hreceived)
      obtain ⟨arrived, hmem, hfst⟩ := List.mem_map.mp (hspeaks.received hpiped)
      obtain ⟨a, ha, rfl⟩ := List.mem_map.mp hmem
      exact ⟨a, ha, hfst⟩
    obtain ⟨a, ha, rfl⟩ := harrived
    have hmem : (path, table) ∈ tables'.files directory jobId' := by
      refine hsub.subset ?_
      simp
    have hpath' : path ∈ tablePaths directory jobId' :=
      (files_paths directory jobId' tables').subset (List.mem_map_of_mem hmem)
    rw [plainId_inj hjob (hplain a ha jobId' hcommand) hpath hpath']
    exact hby

/-! ### A job on the bench

A prepare and one job, whose run leaves a result table and one selection table, followed to the
write of the first.
-/

/-- Every run leaves its result table and one selection table. -/
def benchTables : benchStack.Task → QuantumBundle benchStack → Option Int → Tables String :=
  fun _ _ _ => ⟨"corner results", OrderedDict.empty.set "detectorImages" "detector images"⟩

/-- A prepare, and a job that is ingested. -/
def benchArrivals : List (Arrival benchStack String) :=
  [⟨.prepare (benchPrepare "r_57"), benchWorld, benchTables⟩,
    ⟨.ingest "job" "/exposure" none (some (benchKey "r_57")), benchWorld, benchTables⟩]

/-- All that is seen of it. -/
def benchSeen : List (Seen String) :=
  ((Desk.coordinatorMain benchEnv benchArrivals).outcome (.started benchWorld benchTables)).2.seen

/-- The job's result table is written, and by the job's own run. -/
theorem deferred_writes_own_job :
    ∃ before after, benchSeen = before ++ .wrote "/stamps/job.parquet" "corner results" :: after ∧
      WrittenBy benchEnv "job" before "/stamps/job.parquet" "corner results" := by
  have hmem : .wrote "/stamps/job.parquet" "corner results" ∈ benchSeen := by
    decide +kernel
  obtain ⟨before, after, hsplit⟩ := List.append_of_mem hmem
  obtain ⟨-, -, hown⟩ := deferred_writes_own benchEnv benchArrivals benchWorld benchTables
    benchSeen List.prefix_rfl
  refine ⟨before, after, hsplit, hown ?_ "/stamps" "job" rfl ?_ _ ?_ _ _ _ hsplit⟩
  · intro a ha jobId hjob
    rcases List.mem_cons.mp ha with rfl | ha
    · exact absurd hjob nofun
    · obtain rfl := List.mem_singleton.mp ha
      obtain rfl := Option.some.inj hjob
      decide
  · decide
  · decide

end DonutServer
