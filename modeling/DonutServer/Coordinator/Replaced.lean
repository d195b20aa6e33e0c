/-
One command may stand for another under a prepared key.

A key holds what a prepare's overrides lead to, the shards about its boresight, its filter
and its time, and that is all an entry is built of.  So commands of one key build one
entry, and a process that remembers another command under a key goes on exactly as it
would have: the same replies, and the same of everything but its table.
-/
import DonutServer.Coordinator.Activation
import DonutServer.Coordinator.OverrideKey
import DonutServer.Coordinator.Twins

namespace DonutServer

open Effect Function

variable {S : Stack} {env : Env S}

/-! ### Twins

`SameKeys` relates two tables that remember commands of the same keys, and `Twins` two processes
that differ in these alone.  Each function of the coordinator is run in both at once; only
`ensure_prepared_for_push` looks into the table, and there the one fact about keys is used, that
commands of one key activate an entry in the same way.
-/

/-- Under each key both remember a command of that key, or neither remembers any. -/
def SameKeys (env : Env S) (t t' : OrderedDict PrepareKey PrepareCommand) : Prop :=
  ∀ k, Option.Rel (fun c c' => Keyed env k c ∧ Keyed env k c') (t.get? k) (t'.get? k)

theorem SameKeys.refl {t : OrderedDict PrepareKey PrepareCommand} (h : t.Forall (Keyed env)) :
    SameKeys env t t := by
  intro k
  cases hget : t.get? k with
  | none => exact .none
  | some c => exact .some ⟨h.get? hget, h.get? hget⟩

/-- The same command goes under its key in both. -/
theorem SameKeys.set {t t' : OrderedDict PrepareKey PrepareCommand} (h : SameKeys env t t')
    {k : PrepareKey} {c c' : PrepareCommand} (hk : Keyed env k c) (hk' : Keyed env k c') :
    SameKeys env (t.set k c) (t'.set k c') := by
  intro k'
  rw [OrderedDict.get?_set, OrderedDict.get?_set]
  by_cases heq : k' = k
  · rw [if_pos heq, if_pos heq, heq]
    exact .some ⟨hk, hk'⟩
  · rw [if_neg heq, if_neg heq]
    exact h k'

/-- Another command of its key takes the place of the one remembered. -/
theorem SameKeys.replace {t : OrderedDict PrepareKey PrepareCommand} (h : t.Forall (Keyed env))
    {k : PrepareKey} {c c' : PrepareCommand} (hget : t.get? k = some c) (hk' : Keyed env k c') :
    SameKeys env t (t.set k c') := by
  intro k'
  rw [OrderedDict.get?_set]
  by_cases heq : k' = k
  · rw [if_pos heq, heq, hget]
    exact .some ⟨h.get? hget, hk'⟩
  · rw [if_neg heq]
    exact SameKeys.refl h k'

/-- Under one sky what is a command of a key stays one. -/
theorem SameKeys.sky {env' : Env S} {t t' : OrderedDict PrepareKey PrepareCommand}
    (h : SameKeys env t t') (hsky : env.envelope = env'.envelope) : SameKeys env' t t' := by
  intro k
  have hk := h k
  revert hk
  cases t.get? k with
  | none =>
      cases t'.get? k with
      | none => exact fun _ => .none
      | some c' => exact nofun
  | some c =>
      cases t'.get? k with
      | none => exact nofun
      | some c' =>
          intro hk
          obtain ⟨hc, hc'⟩ := Option.rel_some_some.mp hk
          exact .some ⟨prepareKey_congr hsky hc, prepareKey_congr hsky hc'⟩

/-- Processes that differ in nothing but which command of a key they remember. -/
structure Twins (env : Env S) (p q : Process S) : Prop where
  same : q = { p with prepareCommands := q.prepareCommands }
  table : SameKeys env p.prepareCommands q.prepareCommands

theorem byTables_twins : ByTables (Twins env) where
  same h := h.same
  only h hsame := ⟨rfl, by rw [hsame]; exact h.table⟩

theorem obtainEntry_twins {k : PrepareKey} {c : PrepareCommand} (hk : Keyed env k c) :
    Lockstep (Twins env) Eq (obtainEntry env k c) (obtainEntry env k c) := by
  unfold obtainEntry
  refine byTables_twins.reads ?_
  intro p table
  dsimp only
  cases p.preparedCache.get? k with
  | none =>
      refine (byTables_twins.buildEntry k rfl (sameShards _)).bind ?_
      intro r r' hr
      obtain ⟨entry, task, refcat⟩ := r
      obtain ⟨entry', task', refcat'⟩ := r'
      obtain ⟨hentry, htask, hrefcat⟩ := hr
      dsimp only at hentry htask hrefcat
      rw [hentry, htask, hrefcat.eq]
      refine (Lockstep.write ?_).then' fun _ => .pure rfl
      -- The one place where a command enters the table, and the same one enters both.
      intro p q hpq
      rw [hpq.same]
      exact ⟨rfl, hpq.table.set hk hk⟩
  | some entry =>
      refine byTables_twins.writes ?_ (fun _ _ => rfl) fun _ => rfl
      refine (byTables_twins.ensureStore entry.refcatStore (sameShards _)).bind ?_
      intro refcat refcat' hrefcat
      rw [hrefcat.eq]
      exact .pure rfl

theorem lookUpEntry_twins (c : PrepareCommand) :
    Lockstep (Twins env) Eq (lookUpEntry env c) (lookUpEntry env c) := by
  have hkey : Alike (fun k k' => k = k' ∧ Keyed env k c) (prepareKey env c) (prepareKey env c) := by
    rcases hk : prepareKey env c with exc | k
    · exact .error exc
    · exact .ok ⟨rfl, hk⟩
  unfold lookUpEntry
  refine byTables_twins.ensureUniverse.then' fun _ => (byTables_twins.external hkey).bind ?_
  intro k k' h
  obtain ⟨rfl, hk⟩ := h
  exact (obtainEntry_twins hk).then' fun entry => .pure rfl

theorem ensurePrepared_twins (c : PrepareCommand) :
    Lockstep (Twins env) Eq (ensurePrepared env c) (ensurePrepared env c) := by
  unfold ensurePrepared
  refine (lookUpEntry_twins c).then' fun found => ?_
  exact (byTables_twins.activateEntry _ c).then' fun calib => .pure rfl

/-- Where a job reads the table, what it finds is another command of the same key. -/
theorem ensurePreparedForPush_twins (k : PrepareKey) :
    Lockstep (Twins env) Eq (ensurePreparedForPush env k) (ensurePreparedForPush env k) := by
  unfold ensurePreparedForPush
  refine Lockstep.get.bind ?_
  intro p q hpq
  obtain ⟨hsame, htable⟩ := hpq
  have hk := htable k
  rw [hsame]
  dsimp only
  revert hk
  cases p.prepareCommands.get? k with
  | none =>
      cases q.prepareCommands.get? k with
      | none => exact fun _ => .throw _
      | some c' => exact nofun
  | some c =>
      cases q.prepareCommands.get? k with
      | none => exact nofun
      | some c' =>
          intro hk
          obtain ⟨hc, hc'⟩ := Option.rel_some_some.mp hk
          dsimp only
          cases p.preparedCache.get? k with
          | some entry =>
              dsimp only
              refine byTables_twins.writes ?_ (fun _ _ => rfl) fun _ => rfl
              rw [hc.activate hc' entry]
              exact (byTables_twins.activateEntry entry c').then' fun _ => .pure rfl
          | none =>
              refine (byTables_twins.buildEntry k (hc.task hc') (hc.shards hc')).bind ?_
              intro r r' hr
              obtain ⟨entry, timings⟩ := r
              obtain ⟨entry', timings'⟩ := r'
              obtain ⟨hentry, -⟩ := hr
              dsimp only at hentry
              rw [hentry]
              refine byTables_twins.writes ?_ (fun _ _ => rfl) fun _ => rfl
              rw [hc.activate hc' entry']
              exact (byTables_twins.activateEntry entry' c').then' fun _ => .pure rfl

theorem activateFor_twins (key : Option PrepareKey) :
    Lockstep (Twins env) Eq (activateFor env key) (activateFor env key) := by
  cases key with
  | none => exact .pure rfl
  | some k => exact (ensurePreparedForPush_twins k).then' fun _ => .pure rfl

/-- **Every command does the same in both.** -/
theorem body_twins (command : Command) :
    Lockstep (Twins env) Eq (body env command) (body env command) := by
  cases command with
  | prepare c =>
      refine (ensurePrepared_twins c).then' fun prepared => byTables_twins.reads ?_
      intro p table
      exact .pure rfl
  | resolve directory =>
      refine byTables_twins.reads ?_
      intro p table
      exact (byTables_twins.calls _).then' fun exposure => .pure rfl
  | push jobId layout numWorkers key =>
      refine (activateFor_twins key).then' fun _ => ?_
      exact (byTables_twins.runPush jobId layout numWorkers).then' fun result => .pure rfl
  | ingest jobId directory numWorkers key =>
      refine (activateFor_twins key).then' fun _ => ?_
      exact (byTables_twins.runIngest jobId directory numWorkers).then' fun result => .pure rfl
  | shutdown => exact .pure rfl
  | other cmd => exact .pure rfl

theorem attempt_twins {p q : Process S} (h : Twins env p q) (command : Command) :
    (attempt env command p).1 = (attempt env command q).1 ∧
      Twins env (attempt env command p).2 (attempt env command q).2 := by
  have hrun : Lockstep (Twins env) Eq
      (do
        let msg ← body env command
        if tried command then fault
        pure msg)
      (do
        let msg ← body env command
        if tried command then fault
        pure msg) := by
    refine (body_twins command).then' fun msg => ?_
    split
    · exact byTables_twins.fault.then' fun _ => .pure rfl
    · exact .pure rfl
  obtain ⟨hval, hstate⟩ := hrun p q h
  unfold attempt
  revert hval hstate
  generalize outcome _ p = r
  generalize outcome _ q = r'
  intro hval hstate
  obtain ⟨x, p'⟩ := r
  obtain ⟨x', q'⟩ := r'
  cases hval with
  | ok hmsg => exact ⟨hmsg, hstate⟩
  | error exc => exact ⟨rfl, hstate⟩

/-! ### Histories

By induction over the commands, which the twins are given in the same order and with the same
things outside.  They go on being twins, and answer alike each time.
-/

/-- What a command is answered with. -/
def Moment.reply (g : Globals S) (m : Moment S) : Msg :=
  ((coordinatorProgram m.env).run m.world m.command g).1

/-- The replies to a history, in order. -/
def replies : Globals S → List (Moment S) → List Msg
  | _, [] => []
  | g, m :: rest => m.reply g :: replies (m.serve g) rest

/-- `g'` is `g` but for which command of a key it remembers. -/
structure Globals.Twins (env : Env S) (g g' : Globals S) : Prop where
  same : g' = { g with prepareCommands := g'.prepareCommands }
  table : SameKeys env g.prepareCommands g'.prepareCommands

/-- Twins serve a command alike, and are twins after it. -/
theorem Moment.serve_twins {m : Moment S} {g g' : Globals S} (h : g.Twins m.env g') :
    m.reply g = m.reply g' ∧ (m.serve g).Twins m.env (m.serve g') := by
  have hprocess : DonutServer.Twins m.env ⟨g, m.world⟩ ⟨g', m.world⟩ :=
    ⟨by rw [h.same], h.table⟩
  obtain ⟨hreply, hsame, htable⟩ := attempt_twins hprocess m.command
  refine ⟨hreply, ?_⟩
  unfold serve coordinatorProgram settle
  dsimp only
  split
  · exact ⟨by rw [hsame], htable⟩
  · exact ⟨by rw [hsame], htable⟩

/-- **Two processes that are twins answer every history alike, and are twins after it.** -/
theorem twins_run {envs : Env S → Prop} (hsky : SameSky envs) (henv : envs env)
    {history : List (Moment S)} (henvs : ∀ m ∈ history, envs m.env) {g g' : Globals S}
    (h : g.Twins env g') :
    replies g history = replies g' history ∧
      (history.foldl Moment.serve g).Twins env (history.foldl Moment.serve g') := by
  induction history generalizing g g' with
  | nil => exact ⟨rfl, h⟩
  | cons m rest ih =>
      obtain ⟨hm, hrest⟩ := List.forall_mem_cons.mp henvs
      have hhere : g.Twins m.env g' := ⟨h.same, h.table.sky (hsky _ _ henv hm)⟩
      obtain ⟨hreply, hserved⟩ := Moment.serve_twins hhere
      have hback : (m.serve g).Twins env (m.serve g') :=
        ⟨hserved.same, hserved.table.sky (hsky _ _ hm henv)⟩
      obtain ⟨hreplies, hend⟩ := ih hrest hback
      refine ⟨?_, hend⟩
      unfold replies
      rw [hreply, hreplies]

/-! ### Keys and calls

What was shown of one command and of histories, in terms of keys.  Lists of one key lead to the
same calls and to the same end of the loop; the other way round it takes lists whose texts all
compile, since of a text that does not compile nothing but the exception is left.
-/

/-- `override_key` gives both lists one key. -/
def OverrideSpec.SameKey (spec spec' : OverrideSpec) : Prop :=
  ∃ key, spec.overrideKey = .ok key ∧ spec'.overrideKey = .ok key

/-- What two commands of one key build, and ask for. -/
structure SameBuild (env : Env S) (k : PrepareKey) (c c' : PrepareCommand) : Prop where
  task : buildTask env c.configOverrides = buildTask env c'.configOverrides
  shards : ∃ ids ids', shardIdsForPointing env c.boresightRa c.boresightDec = .ok ids ∧
    shardIdsForPointing env c'.boresightRa c'.boresightDec = .ok ids' ∧
    ids.toFinset = k.refcat ∧ ids'.toFinset = k.refcat
  calib : ensureCalib env c = ensureCalib env c'
  /-- From any state the entries are one, and building them writes the same. -/
  entry : Lockstep Eq (fun r r' => r.1 = r'.1) (buildEntry env k c) (buildEntry env k c')
  /-- Activating an entry for either is the same. -/
  activate : ∀ entry, activateEntry env entry c = activateEntry env entry c'

theorem Keyed.sameBuild {k : PrepareKey} {c c' : PrepareCommand} (h : Keyed env k c)
    (h' : Keyed env k c') : SameBuild env k c c' where
  task := h.task h'
  shards := by
    obtain ⟨ids, hids, hk⟩ := h.parts
    obtain ⟨ids', hids', hk'⟩ := h'.parts
    exact ⟨ids, ids', hids, hids', by rw [hk], by rw [hk']⟩
  calib := h.calib h'
  entry := by
    intro p q hpq
    obtain ⟨hval, hstate⟩ :=
      byTables_eq.buildEntry k (h.task h') (h.shards h') p q hpq
    exact ⟨hval.mono fun _ _ hr => hr.1, hstate⟩
  activate := h.activate h'

/-- **A prepared key is sound, and tells apart what the overrides call.**  Lists of one key
make the same calls and come to the same; lists that can be used to the end and make the same
calls have one key.  Commands of one key build one entry out of one task, for the same shards
and the same calibs.  And wherever a process got to, as long as the sky is one, it may
remember another command under a key: every reply from there on is the same, and so is
everything the process holds, the table apart. -/
theorem prepare_key_sound {envs : Env S → Prop} (hsky : SameSky envs) :
    (∀ (env : Env S) (spec spec' : OverrideSpec), spec.SameKey spec' →
      spec.calls env = spec'.calls env ∧
        spec.applyOverrides env = spec'.applyOverrides env) ∧
    (∀ (env : Env S) (spec spec' : OverrideSpec), spec.Usable env → spec'.Usable env →
      (spec.SameKey spec' ↔ spec.calls env = spec'.calls env)) ∧
    (∀ (env : Env S) (k : PrepareKey) (c c' : PrepareCommand), Keyed env k c → Keyed env k c' →
      SameBuild env k c c') ∧
    ∀ env, envs env → ∀ before after : List (Moment S), (∀ m ∈ before ++ after, envs m.env) →
      ∀ k c c', (served before).prepareCommands.get? k = some c → Keyed env k c' →
        ∀ g, g = { served before with
            prepareCommands := (served before).prepareCommands.set k c' } →
          replies g after = replies (served before) after ∧
          ∃ table, after.foldl Moment.serve g =
            { served (before ++ after) with prepareCommands := table } := by
  refine ⟨?_, ?_, fun _ _ _ _ h h' => h.sameBuild h', ?_⟩
  · intro env spec spec' h
    obtain ⟨key, hkey, hkey'⟩ := h
    have hadds : addOverrides env (spec.getD []) = addOverrides env (spec'.getD []) :=
      addOverrides_congr hkey hkey'
    refine ⟨congrArg Prod.fst hadds, funext fun config => ?_⟩
    unfold OverrideSpec.applyOverrides
    rw [hadds]
  · intro env spec spec' husable husable'
    constructor
    · intro h
      obtain ⟨key, hkey, hkey'⟩ := h
      exact congrArg Prod.fst (addOverrides_congr hkey hkey')
    · intro hcalls
      have hkey := keyEntries_of_usable husable
      have hkey' := keyEntries_of_usable husable'
      unfold OverrideSpec.calls at hcalls
      rw [← hcalls] at hkey'
      exact ⟨_, hkey, hkey'⟩
  · intro env henv before after henvs k c c' hget hk' g hg
    have hplaced : Placed env (served before) :=
      served_placed hsky (fun m hm => henvs m (List.mem_append_left _ hm)) henv
    have htwins : (served before).Twins env g := by
      rw [hg]
      exact ⟨rfl, SameKeys.replace hplaced.commands hget hk'⟩
    obtain ⟨hreplies, hend⟩ :=
      twins_run hsky henv (fun m hm => henvs m (List.mem_append_right _ hm)) htwins
    refine ⟨hreplies.symm, (after.foldl Moment.serve g).prepareCommands, ?_⟩
    rw [served, List.foldl_append]
    exact hend.same

/-- A file under an empty name has the key of one under none; and a prepare at another
boresight with the same shards takes the place of the first, which a job then brings back. -/
theorem prepare_key_sound_redirected :
    (OverrideSpec.calls benchEnv (some [⟨some "python", none, none, some (some ""), some "pass"⟩]) =
      OverrideSpec.calls benchEnv (some [⟨some "python", none, none, none, some "pass"⟩])) ∧
    Keyed benchEnv (benchKey "r_57") { benchPrepare "r_57" with boresightRa := 1 } ∧
    replies { served [benchMoment "r_57" []] with
        prepareCommands := (served [benchMoment "r_57" []]).prepareCommands.set (benchKey "r_57")
          { benchPrepare "r_57" with boresightRa := 1 } }
        [⟨benchEnv, benchWorld, .push "job" [] none (some (benchKey "r_57"))⟩] =
      replies (served [benchMoment "r_57" []])
        [⟨benchEnv, benchWorld, .push "job" [] none (some (benchKey "r_57"))⟩] := by
  obtain ⟨hcalls, -, -, hreplace⟩ := prepare_key_sound benchEnv_sky
  have hkeyed : Keyed benchEnv (benchKey "r_57") { benchPrepare "r_57" with boresightRa := 1 } := rfl
  refine ⟨(hcalls benchEnv _ _ ⟨[.python "<override>" "pass"], rfl, rfl⟩).1, hkeyed, ?_⟩
  have hall : ∀ m ∈ [benchMoment "r_57" []] ++
      [(⟨benchEnv, benchWorld, .push "job" [] none (some (benchKey "r_57"))⟩ : Moment benchStack)],
      m.env = benchEnv := by
    intro m hm
    rcases List.mem_cons.mp hm with rfl | hm
    · rfl
    · rw [List.mem_singleton.mp hm]
  exact (hreplace benchEnv rfl _ _ hall (benchKey "r_57") (benchPrepare "r_57") _ rfl hkeyed
    _ rfl).1

/-- A bench where a lone parenthesis does not compile. -/
def strictEnv : Env benchStack :=
  { benchEnv with
    compile := fun text _ =>
      if text ∈ ["(", ")"] then .error ⟨.other "SyntaxError", "invalid syntax"⟩ else .ok text }

/-- Of texts that do not compile no call is made, and their keys are two. -/
theorem uncompiled_texts_differ :
    OverrideSpec.calls strictEnv (some [⟨some "python", none, none, none, some "("⟩]) =
      OverrideSpec.calls strictEnv (some [⟨some "python", none, none, none, some ")"⟩]) ∧
    ¬ OverrideSpec.SameKey (some [⟨some "python", none, none, none, some "("⟩])
      (some [⟨some "python", none, none, none, some ")"⟩]) := by
  refine ⟨rfl, ?_⟩
  intro h
  obtain ⟨key, hkey, hkey'⟩ := h
  have heq : [KeyEntry.python "<override>" "("] = [.python "<override>" ")"] :=
    (Except.ok.inj hkey).trans (Except.ok.inj hkey').symm
  exact absurd heq (by decide)

end DonutServer
