/-
Jobs do not run under each other's config.

A `Session` is one coordinator after another: the commands each handles, in any order
and with anything going wrong, and a restart in between that leaves nothing of the
globals.  Beside the globals it remembers which prepares succeeded and with which keys,
over all the processes, and which keys have got their entry in the present one.

Everything rests on `Cached`, which every command keeps: whatever is cached is what
building it afresh would give, so an activation sets up the config of the command it
is for, however the entry came to be there.
-/
import DonutServer.Lib.System
import DonutServer.Coordinator.Caches
import DonutServer.Coordinator.Job

namespace DonutServer

open Effect

variable {S : Stack} {env : Env S}

/-! ### Sessions

A session is what the clients of one flight have to do with over a day.  What they hold on to is
the key that a prepare was answered with, and they may come back with it after other prepares,
after failures and after restarts; so the session remembers all keys ever returned, and separately
those that the present process knows.
-/

/-- A coordinator, the successful prepares so far with their keys, and the keys whose
entry a prepare of this process has found or built. -/
structure Session (S : Stack) where
  globals : Globals S
  returned : List (PrepareCommand × PrepareKey)
  prepared : List PrepareKey

/-- What happens to a coordinator. -/
inductive SessionAction (S : Stack)
  | handle (command : Command) (world : World S)
  | restart

/-- The successful prepares, once `command` was answered with `msg`. -/
def noteReturned (command : Command) (msg : Msg) (returned : List (PrepareCommand × PrepareKey)) :
    List (PrepareCommand × PrepareKey) :=
  match command, msg with
  | .prepare c, .prepared _ _ key => (c, key) :: returned
  | _, _ => returned

/-- The keys with an entry, once `command` has been handled. -/
def notePreparedKey (env : Env S) (command : Command) (p : Process S) (prepared : List PrepareKey) :
    List PrepareKey :=
  match command with
  | .prepare c =>
      match (lookUpEntry env c).outcome p with
      | (.ok (key, _), _) => key :: prepared
      | (.error _, _) => prepared
  | _ => prepared

/-- One command, or a restart.  A replay of the last prepare is a command like any other. -/
def Session.next (env : Env S) (s : Session S) : SessionAction S → Session S
  | .handle command world =>
      let r := (coordinatorProgram env).run world command s.globals
      { globals := r.2
        returned := noteReturned command r.1 s.returned
        prepared := notePreparedKey env command ⟨s.globals, world⟩ s.prepared }
  | .restart => { s with globals := .fresh, prepared := [] }

/-- The first process, before its first command. -/
def Session.started : Session S := ⟨.fresh, [], []⟩

/-- The sessions there are. -/
def sessionSystem (env : Env S) : System (Session S) (SessionAction S) where
  init s := s = Session.started
  step s a s' := s.next env a = s'

/-! ### What a command keeps

Only a prepare writes the table of commands.  Any other command leaves it alone and keeps the
caches good, wherever it stops.
-/

/-- The caches stay good, and the table of commands as it is. -/
structure KeepsTable (env : Env S) (p q : Process S) : Prop where
  cached : Cached env q.toGlobals
  table : q.prepareCommands = p.prepareCommands

theorem Reads.keepsTable {p q r : Process S} (h : KeepsTable env p q) (hr : Reads q r) :
    KeepsTable env p r := by
  obtain ⟨_, _, rfl⟩ := hr
  exact ⟨h.cached.congr rfl rfl, h.table⟩

theorem activateFor_ends {p : Process S} (key : Option PrepareKey) (hrefs : env.RefsIdentify)
    (hp : Cached env p.toGlobals) :
    Ends (activateFor env key) p (fun _ q => KeepsTable env p q)
      (fun _ q => KeepsTable env p q) := by
  unfold activateFor
  split
  · exact ⟨hp, rfl⟩
  · rw [ends_bind]
    refine (ensurePreparedForPush_ends hrefs hp).mono ?_ ?_
    · exact fun _ _ h => ⟨h.1, h.2.1⟩
    · exact fun _ _ h => ⟨h.cached, h.table⟩

/-- A command that is no prepare keeps the caches good and the table as it is. -/
theorem body_keepsTable {p : Process S} {command : Command} (hrefs : env.RefsIdentify)
    (hp : Cached env p.toGlobals) (hother : ∀ c, command ≠ .prepare c) :
    Ends (body env command) p (fun _ q => KeepsTable env p q) (fun _ q => KeepsTable env p q) := by
  refine body_ends (fun _ _ => ⟨hp, rfl⟩) (fun _ _ hq ht => ht.keepsTable hq) ?_ ?_ ?_
  · intro c hc
    exact absurd hc (hother c)
  · intro _ _ _ key _
    exact activateFor_ends key hrefs hp
  · intro _ _ _ key _
    exact activateFor_ends key hrefs hp

/-! ### What a session keeps

Three things, of which each needs the one before it: the caches are good, so a prepare that
succeeds returns its own key, so the keys that were returned in this process are those in its
table.
-/

/-- The caches are good, successful prepares returned their own keys, and the table has
the keys that were prepared here. -/
structure Session.Sound (env : Env S) (s : Session S) : Prop where
  cached : Cached env s.globals
  returned : ∀ x ∈ s.returned, Keyed env x.2 x.1
  prepared : ∀ k, k ∈ s.globals.prepareCommands.keys ↔ k ∈ s.prepared

theorem settle_cached {command : Command} {g : Globals S} (h : Cached env g) :
    Cached env (settle command g) := by
  unfold settle
  split
  · exact h.congr rfl rfl
  · exact h

/-- What is left once the work put off is done has the same table. -/
theorem settle_table {command : Command} {g : Globals S} :
    (settle command g).prepareCommands = g.prepareCommands := by
  unfold settle
  split <;> rfl

/-- A failure is no success. -/
theorem failure_ne_prepared {command : Command} {exc : Exn} {timings : PrepareTimings}
    {dump : String} {k : PrepareKey} : failure command exc ≠ .prepared timings dump k := by
  intro h
  cases command <;> exact absurd h (by simp [failure])

/-- A prepare keeps the caches good, returns its own key, and puts it into the table as
soon as it has its entry. -/
theorem prepare_sound {p : Process S} {c : PrepareCommand} {prepared : List PrepareKey}
    (hrefs : env.RefsIdentify) (hp : Cached env p.toGlobals)
    (htable : ∀ k, k ∈ p.prepareCommands.keys ↔ k ∈ prepared) :
    Cached env (attempt env (.prepare c) p).2.toGlobals ∧
      (∀ timings dump k, (attempt env (.prepare c) p).1 = .prepared timings dump k →
        Keyed env k c) ∧
      ∀ k, k ∈ (attempt env (.prepare c) p).2.prepareCommands.keys ↔
        k ∈ notePreparedKey env (.prepare c) p prepared := by
  have hlook := lookUpEntry_ends (c := c) hp
  unfold Ends at hlook
  rcases hrun : (lookUpEntry env c).outcome p with ⟨exc | ⟨k, entry, task, refcat⟩, q⟩
  · rw [hrun] at hlook
    have hnote : notePreparedKey env (.prepare c) p prepared = prepared := by
      simp only [notePreparedKey, hrun]
    rw [hnote]
    have hbody : Ends (body env (.prepare c)) p (fun _ _ => False) (fun _ t => t = q) := by
      have h : (ensurePrepared env c).outcome p = (.error exc, q) := by
        unfold ensurePrepared
        rw [outcome_bind, hrun]
      show Ends (ensurePrepared env c >>= _) p _ _
      rw [ends_bind]
      unfold Ends
      rw [h]
    refine attempt_of_ends (P := fun msg t => Cached env t.toGlobals ∧
      (∀ timings dump k, msg = .prepared timings dump k → Keyed env k c) ∧
      ∀ k, k ∈ t.prepareCommands.keys ↔ k ∈ prepared) hbody ?_ ?_ ?_
    · exact fun _ _ _ h => h.elim
    · exact fun _ _ _ _ h => h.elim
    · intro exc t heq
      subst heq
      refine ⟨hlook.cached, fun _ _ _ h => absurd h failure_ne_prepared, fun k => ?_⟩
      rw [hlook.table]
      exact htable k
  · rw [hrun] at hlook
    obtain ⟨hq, hk, hserves, hkeys, _⟩ := hlook
    have hnote : notePreparedKey env (.prepare c) p prepared = k :: prepared := by
      simp only [notePreparedKey, hrun]
    rw [hnote]
    have hbody : Ends (body env (.prepare c)) p
        (fun msg t => KeepsTable env q t ∧ ∃ timings dump, msg = .prepared timings dump k)
        (fun _ t => KeepsTable env q t) := by
      show Ends (ensurePrepared env c >>= _) p _ _
      rw [ends_bind]
      unfold ensurePrepared
      rw [ends_bind]
      unfold Ends
      rw [hrun]
      show Ends (activateEntry env entry c >>= _) q _ _
      rw [ends_bind]
      refine (activateEntry_ends hrefs hq hk hserves).mono ?_ (fun _ _ h => ⟨h.cached, h.table⟩)
      intro calib t hends
      obtain ⟨ht, htable, _⟩ := hends
      exact ⟨⟨ht, htable⟩, _, _, rfl⟩
    have htable' : ∀ {t : Process S}, t.prepareCommands = q.prepareCommands →
        ∀ k', k' ∈ t.prepareCommands.keys ↔ k' ∈ k :: prepared := by
      intro t ht k'
      rw [ht, hkeys k', List.mem_cons, htable k']
    refine attempt_of_ends (P := fun msg t => Cached env t.toGlobals ∧
      (∀ timings dump k, msg = .prepared timings dump k → Keyed env k c) ∧
      ∀ k', k' ∈ t.prepareCommands.keys ↔ k' ∈ k :: prepared) hbody ?_ ?_ ?_
    · intro msg t w hc
      obtain ⟨ht, timings, dump, rfl⟩ := hc
      refine ⟨ht.cached.congr rfl rfl, ?_, htable' ht.table⟩
      intro timings' dump' k' h
      rw [← (Msg.prepared.inj h).2.2]
      exact hk
    · intro msg exc t w hc
      obtain ⟨ht, _⟩ := hc
      exact ⟨ht.cached.congr rfl rfl, fun _ _ _ h => absurd h failure_ne_prepared, htable' ht.table⟩
    · intro exc t ht
      exact ⟨ht.cached, fun _ _ _ h => absurd h failure_ne_prepared, htable' ht.table⟩

theorem started_sound : (Session.started : Session S).Sound env :=
  ⟨cached_fresh, fun _ h => absurd h List.not_mem_nil, fun _ => Iff.rfl⟩

/-- **One command or restart keeps a session sound.** -/
theorem Session.Sound.next {s : Session S} (hrefs : env.RefsIdentify) (h : s.Sound env)
    (a : SessionAction S) : (s.next env a).Sound env := by
  cases a with
  | restart => exact ⟨cached_fresh, h.returned, fun _ => Iff.rfl⟩
  | handle command world =>
      by_cases hprep : ∃ c, command = .prepare c
      · obtain ⟨c, rfl⟩ := hprep
        obtain ⟨hcached, hkeyed, htable⟩ :=
          prepare_sound (p := ⟨s.globals, world⟩) (c := c) hrefs h.cached h.prepared
        have hsettled : Cached env (settle (.prepare c) _) := settle_cached hcached
        refine ⟨hsettled, ?_, htable⟩
        intro x hx
        have hx : x ∈ noteReturned (.prepare c) (attempt env (.prepare c) ⟨s.globals, world⟩).1
          s.returned := hx
        unfold noteReturned at hx
        split at hx
        · rename_i timings dump k hcommand hmsg
          obtain rfl := Command.prepare.inj hcommand
          rcases List.mem_cons.mp hx with rfl | hold
          · exact hkeyed _ _ _ hmsg
          · exact h.returned x hold
        · exact h.returned x hx
      · have hother : ∀ c, command ≠ .prepare c := fun c hc => hprep ⟨c, hc⟩
        have hkeeps : KeepsTable env ⟨s.globals, world⟩
            (attempt env command ⟨s.globals, world⟩).2 := by
          refine attempt_of_ends (P := fun _ q => KeepsTable env ⟨s.globals, world⟩ q)
            (body_keepsTable hrefs h.cached hother) ?_ ?_ ?_
          · exact fun _ _ _ hq => ⟨hq.cached.congr rfl rfl, hq.table⟩
          · exact fun _ _ _ _ hq => ⟨hq.cached.congr rfl rfl, hq.table⟩
          · exact fun _ _ hq => hq
        have hsettled : Cached env (settle command _) := settle_cached hkeeps.cached
        refine ⟨hsettled, ?_, ?_⟩
        · have hsame : ∀ msg, noteReturned command msg s.returned = s.returned := by
            intro msg
            unfold noteReturned
            split
            · exact absurd rfl (hother _)
            · rfl
          intro x hx
          refine h.returned x ?_
          rw [← hsame]
          exact hx
        · intro k
          show k ∈ (settle command _).prepareCommands.keys ↔ k ∈ notePreparedKey env command _ _
          rw [settle_table, hkeeps.table]
          unfold notePreparedKey
          split
          · exact absurd rfl (hother _)
          · exact h.prepared k

/-- Every session is sound at every point. -/
theorem reach_sound {s : Session S} (hrefs : env.RefsIdentify)
    (h : (sessionSystem env).Reach System.always s) : s.Sound env := by
  refine h.invariant ?_ ?_
  · intro s heq
    subst heq
    exact started_sound
  · intro s a s' hs _ heq
    subst heq
    exact hs.next hrefs a

/-! ### Isolation

There are two halves to it.  A push that is let through runs under the very config that was
prepared under its key; and a push whose key has got no entry in the present process is refused
before anything is written.
-/

/-- **Config isolation.**  In any session, take a key that some prepare returned.  A push
that carries it and gets past `ensure_prepared_for_push` finds the very config of that
prepare live; and a key that no prepare of the present process got an entry for is
refused, with nothing written. -/
theorem config_isolation {s : Session S} (hrefs : env.RefsIdentify)
    (hs : (sessionSystem env).Reach System.always s) (world : World S) :
    (∀ c k, (c, k) ∈ s.returned → ∀ entry q,
      (ensurePreparedForPush env k).outcome ⟨s.globals, world⟩ = (.ok entry, q) →
        Live env c q.toGlobals) ∧
    (∀ k, k ∉ s.prepared → (ensurePreparedForPush env k).outcome ⟨s.globals, world⟩ =
      (.error (neverPrepared k), ⟨s.globals, world⟩)) := by
  have hsound := reach_sound hrefs hs
  refine ⟨?_, ?_⟩
  · intro c k hck entry q hrun
    obtain ⟨_, _, c', hk', hlive⟩ :=
      (ensurePreparedForPush_ends hrefs hsound.cached).of_ok hrun
    have hkeyed : Keyed env k c := hsound.returned (c, k) hck
    exact hlive.congr hrefs hk' hkeyed
  · intro k hk
    exact ensurePreparedForPush_unknown fun hmem => hk ((hsound.prepared k).mp hmem)

/-! ### A bench coordinator

A stack small enough to be evaluated, which the other modules of the coordinator use too.  Its
values are texts, and each call of its puts into its result what it was called with, so that two
things made in different ways are different things.
-/

/-- A stack whose values are the texts they were made from. -/
abbrev benchStack : Stack where
  Config := List String
  Number := Nat
  Code := String
  Task := List String
  Calib := String
  Row := String
  Timespan := String
  Raw := String

/-- The parent whose file is at `/refcat/<id>.fits`. -/
def benchParent (path : String) : Nat :=
  Nat.ofDigitChars 10 ((path.toList.drop 8).take (path.toList.length - 13)) 0

/-- A bench with one detector and two refcat shards around every pointing. -/
def benchEnv : Env benchStack where
  environ name :=
    if name = "DONUT_SERVER_CALIB_DIR" then some "/calib"
    else if name = "DONUT_SERVER_REFCAT_DIR" then some "/refcat"
    else if name = "DONUT_SERVER_STAMP_DIR" then some "/stamps"
    else none
  reprFloat x := toString x
  freshConfig := .ok []
  setDoSelectionOutput config := config ++ ["config.doSelectionOutput=True"]
  compile text _ := .ok text
  applyTo calls config := .ok (config ++ calls.map fun call => match call with
    | .addValueOverride field v => s!"config.{field}={v}"
    | .addPythonOverride code => code)
  connections _ := .ok ⟨{"raws"}, {"refCat"}, {"cornerResults"}⟩
  hangTimeout _ := none
  unitTimeout _ := none
  positive n := 0 < n
  atMost m n := m ≤ n
  reprNumber n := toString n
  makeTask config := .ok config
  saveToString config := .ok (String.join config)
  envelope _ _ := .ok [(8192, 8194)]
  getData path := .ok [path]
  lookupId row := 16 * benchParent row
  fillCatalog _ := .ok ()
  listFiles _ := ["ptc_191.fits"]
  isDir _ := true
  pathExists _ := true
  readPtc path := .ok ("R00_SW0", path)
  readCalib path := .ok path
  openButler _ := .ok ()
  queryInfo collections := .ok collections
  parseTime text := .ok text
  reprTimespan t := t
  findDataset _ _ _ _ := .ok none
  getDataset ref := .ok ref.datasetType
  makedirs _ := .ok ()
  warmUpParquet := .ok ()
  dimensionUniverse := .ok ()
  decodeExposure _ _ := .ok "R00_SW0"
  physicalLabel _ := .ok "r_57"
  bandLabel _ := .ok "r"
  visitId _ := 1
  detectorId _ := 191
  detectorName raw := raw
  dayObs _ := .ok 20260714
  groupId _ := .ok "group"
  boxEnvelope _ := .ok [(8192, 8193)]

theorem benchEnv_refs : benchEnv.RefsIdentify where
  describes h := absurd (Except.ok.inj h).symm (Option.some_ne_none _)
  unique h := absurd (Except.ok.inj h).symm (Option.some_ne_none _)

/-- Nothing goes wrong, and every job has the same output. -/
def benchWorld : World benchStack where
  faults := []
  block := []
  headers directory := .error (.runtime directory)
  raws _ _ := .ok (OrderedDict.empty.set "R00_SW0" "R00_SW0")
  quantum _ _ _ := .ok ⟨[1], []⟩

/-- A prepare of the bench, without overrides. -/
def benchPrepare (physicalFilter : String) : PrepareCommand :=
  ⟨physicalFilter, 0, 0, "2026-07-14T05:42:02", []⟩

/-- Its key. -/
def benchKey (physicalFilter : String) : PrepareKey :=
  ⟨[], physicalFilter, [8192, 8193].toFinset, "2026-07-14T05:42:02"⟩

/-- Two prepares, one after the other. -/
def benchSession : Session benchStack :=
  (Session.started.next benchEnv (.handle (.prepare (benchPrepare "r_57")) benchWorld)).next benchEnv
    (.handle (.prepare (benchPrepare "g_6")) benchWorld)

theorem benchSession_reach : (sessionSystem benchEnv).Reach System.always benchSession :=
  .step (.step (.init rfl) trivial rfl) trivial rfl

/-- A push of the first of two prepares: the second is live, and the first comes back. -/
theorem config_isolation_earlier_prepare :
    benchSession.globals.activeKey = some (benchKey "g_6") ∧
    ∃ entry q, (ensurePreparedForPush benchEnv (benchKey "r_57")).outcome
        ⟨benchSession.globals, benchWorld⟩ = (.ok entry, q) ∧
      Live benchEnv (benchPrepare "r_57") q.toGlobals := by
  have hreturned : (benchPrepare "r_57", benchKey "r_57") ∈ benchSession.returned :=
    .tail _ (.head _)
  refine ⟨rfl, _, _, rfl, ?_⟩
  exact (config_isolation benchEnv_refs benchSession_reach benchWorld).1 _ _ hreturned _ _ rfl

end DonutServer
