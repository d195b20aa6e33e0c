/-
The prepared cache is an exact LRU, and the filter half in use is the newest there is.

The reference is a log: each command adds the key whose entry it found or built, whatever
became of the rest of it.  The cache holds the last few keys of the log.  A prepare that
finds its entry and then fails to ensure its store has touched it all the same, and one
that builds an entry and then fails to activate it has stored it.

The filter cache is only touched within an activation, and what follows the touch cannot
fail, so the newest filter half is always the live one.
-/
import DonutServer.Coordinator.Activation

namespace DonutServer

open Effect Recency

variable {S : Stack} {envs : Env S → Prop} {env : Env S}

/-! ### The reference

What touches a key is said here without the caches: a key is touched when its entry is there or can
be built.  Whether it is there depends on the cache, though, and so on the log so far; the
reference is therefore run along with the history, and not read off it afterwards.
-/

/-- The entry of `k` is there, or building it succeeds. -/
def foundOrBuilt (env : Env S) (k : PrepareKey) (c : PrepareCommand) (p : Process S) : Bool :=
  match p.preparedCache.get? k with
  | some _ => true
  | none =>
      match (buildEntry env k c).outcome p with
      | (.ok _, _) => true
      | (.error _, _) => false

/-- The key an attempt at an entry touches. -/
def touchOf (env : Env S) (k : PrepareKey) (c : PrepareCommand) (p : Process S) :
    List PrepareKey :=
  if foundOrBuilt env k c p then [k] else []

/-- The part of `ensure_prepared` up to its key. -/
def lookUpKey (env : Env S) (c : PrepareCommand) : Code S PrepareKey := do
  ensureUniverse env
  external (prepareKey env c)

/-- The key a prepare touches. -/
def preparedTouch (env : Env S) (c : PrepareCommand) (p : Process S) : List PrepareKey :=
  match (lookUpKey env c).outcome p with
  | (.ok k, q) => touchOf env k c q
  | (.error _, _) => []

/-- The key a push or an ingest touches. -/
def pushTouch (env : Env S) (k : PrepareKey) (p : Process S) : List PrepareKey :=
  match p.prepareCommands.get? k with
  | some c => touchOf env k c p
  | none => []

/-- The key a command touches. -/
def touchBy (env : Env S) (command : Command) (p : Process S) : List PrepareKey :=
  match command with
  | .prepare c => preparedTouch env c p
  | .push _ _ _ (some k) => pushTouch env k p
  | .ingest _ _ _ (some k) => pushTouch env k p
  | _ => []

/-- What a history leaves, and the keys it touched, oldest first. -/
def touched (history : List (Moment S)) : Globals S × List PrepareKey :=
  history.foldl (fun s m => (m.serve s.1, s.2 ++ touchBy m.env m.command ⟨s.1, m.world⟩))
    (.fresh, [])

theorem touched_fst (history : List (Moment S)) : (touched history).1 = served history := by
  induction history using List.reverseRecOn with
  | nil => rfl
  | append_singleton rest m ih =>
      unfold touched served at ih ⊢
      rw [List.foldl_append, List.foldl_append, ← ih]
      rfl

/-! ### The simulation

`Follows` is what one command keeps.  The keys are the recent end of the log, each entry's task was
built from overrides of its key, the filter cache is within its cap, and once a config is live its
filter half is the newest in that cache.
-/

/-- The task of an entry was built, at one time or another, from overrides of its key. -/
structure PreparedEntry.Built (envs : Env S → Prop) (k : PrepareKey) (entry : PreparedEntry S) :
    Prop where
  key : entry.key = k
  task : ∀ c : PrepareCommand, overrideKey c.configOverrides = k.task →
    ∃ env, envs env ∧ buildTask env c.configOverrides = .ok (entry.task, entry.taskDump)

/-- The caches are what the log says, and the live filter half is the newest. -/
structure Follows (envs : Env S → Prop) (log : List PrepareKey) (g : Globals S) : Prop where
  keys : g.preparedCache.keys = recent preparedCacheCap log
  built : g.preparedCache.Forall (PreparedEntry.Built envs)
  filters : g.filterCalibCache.size ≤ calibCacheCap
  active : g.activeKey ≠ none → ∃ physicalFilter calib id,
    g.calibStore = some (physicalFilter, calib) ∧
      g.filterCalibCache.newest = some (id, calib.filtered)

/-- A process just started follows the empty log. -/
theorem follows_fresh : Follows envs [] (Globals.fresh : Globals S) :=
  ⟨rfl, OrderedDict.forall_empty _, Nat.zero_le _, fun h => absurd rfl h⟩

section Follows

variable {log : List PrepareKey} {p q : Process S} {k : PrepareKey} {c : PrepareCommand}

/-- So the prepared cache never holds more than its cap. -/
theorem Follows.size (h : Follows envs log p.toGlobals) :
    p.preparedCache.size ≤ preparedCacheCap := by
  rw [OrderedDict.size_eq_length, h.keys]
  show (log.dedup.rtake preparedCacheCap).length ≤ _
  rw [length_rtake]
  exact Nat.min_le_left _ _

theorem Follows.allots (h : Follows envs log p.toGlobals) (hq : Allots p q) :
    Follows envs log q.toGlobals := by
  obtain ⟨hcache, hrest⟩ := Prod.mk.inj hq.caches
  obtain ⟨-, hfilters⟩ := Prod.mk.inj hrest
  obtain ⟨hkey, hrest⟩ := Prod.mk.inj hq.live
  have hcalib : q.calibStore = p.calibStore := (Prod.mk.inj (Prod.mk.inj (Prod.mk.inj hrest).2).2).1
  refine ⟨?_, ?_, ?_, ?_⟩
  · rw [hcache]
    exact h.keys
  · rw [hcache]
    exact h.built
  · rw [hfilters]
    exact h.filters
  · rw [hkey, hcalib, hfilters]
    exact h.active

theorem Follows.reads (h : Follows envs log p.toGlobals) (hr : Reads p q) :
    Follows envs log q.toGlobals := by
  obtain ⟨_, _, rfl⟩ := hr
  exact ⟨h.keys, h.built, h.filters, h.active⟩

/-- Finding an entry touches its key. -/
theorem Follows.find (h : Follows envs log p.toGlobals) (hk : k ∈ p.preparedCache.keys) :
    Follows envs (log ++ [k]) { p.toGlobals with preparedCache := p.preparedCache.moveToEnd k } := by
  refine ⟨?_, h.built.moveToEnd k, h.filters, h.active⟩
  show (p.preparedCache.moveToEnd k).keys = _
  rw [OrderedDict.keys_moveToEnd_rtake hk h.size, h.keys, recent_concat]

/-- So does storing one that was built. -/
theorem Follows.store (h : Follows envs log p.toGlobals) (hk : k ∉ p.preparedCache.keys)
    {entry : PreparedEntry S} (hentry : entry.Built envs k) :
    Follows envs (log ++ [k]) { p.toGlobals with
      preparedCache := (p.preparedCache.set k entry).evict preparedCacheCap } := by
  refine ⟨?_, (h.built.set hentry).evict _, h.filters, h.active⟩
  show ((p.preparedCache.set k entry).evict preparedCacheCap).keys = _
  rw [OrderedDict.keys_set_evict hk, h.keys, recent_concat]

/-! ### The filter half

The filter cache is written by `_ensure_filter_calibs` alone, which moves the half it returns to
the end, found or loaded.  Nothing after that can raise before the live config is set; so there is
no moment at which the newest half is one that did not become live.
-/

/-- **What `_ensure_calib` composes has the newest filter half**, and where it raises the
filter cache is as it was. -/
theorem ensureCalib_newest (p : Process S) (hsize : p.filterCalibCache.size ≤ calibCacheCap) :
    Ends (ensureCalib env c) p
      (fun r q => q.filterCalibCache.size ≤ calibCacheCap ∧
        ∃ id, q.filterCalibCache.newest = some (id, r.1.filtered))
      (fun _ q => q.filterCalibCache = p.filterCalibCache) := by
  unfold ensureCalib
  split
  · rename_i backend _
    unfold ensureCalibFrom
    rw [ends_bind]
    refine ends_external ?_ fun _ _ => rfl
    intro found w _
    rw [ends_bind]
    have hsame : ∀ q : Process S, TurnsDetector { p with world := w } q →
        q.filterCalibCache = p.filterCalibCache := by
      intro q hq
      obtain ⟨_, _, rfl⟩ := hq
      rfl
    refine (ensureDetectorCalibs_turns backend _ _ { p with world := w }).mono ?_
      (fun _ q h => hsame q h)
    intro d q hends
    have hq := hsame q hends
    rw [ends_bind]
    unfold ensureFilterCalibs
    rw [ends_bind, ends_get]
    split
    · rename_i v hget
      rw [ends_bind, ends_modify, ends_pure]
      refine ⟨?_, found.1.filtered, OrderedDict.newest_moveToEnd hget⟩
      have hin := OrderedDict.mem_keys_of_get? hget
      have hsize' : q.filterCalibCache.size ≤ calibCacheCap := by
        rw [hq]
        exact hsize
      show (q.filterCalibCache.moveToEnd found.1.filtered).size ≤ calibCacheCap
      rw [OrderedDict.size_eq_length, OrderedDict.keys_moveToEnd_rtake hin hsize', length_rtake]
      exact Nat.min_le_left _ _
    · rename_i hget
      rw [ends_bind]
      refine ends_external ?_ fun _ _ => hq
      intro v w' _
      rw [ends_bind, ends_modify, ends_pure]
      exact ⟨OrderedDict.size_evict _ _, found.1.filtered,
        OrderedDict.newest_set_evict (OrderedDict.get?_eq_none.mp hget)⟩
  · rfl

/-- **Activating makes the newest filter half the live one.** -/
theorem activateEntry_follows (entry : PreparedEntry S) (h : Follows envs log p.toGlobals) :
    Ends (activateEntry env entry c) p (fun _ q => Follows envs log q.toGlobals)
      (fun _ q => Follows envs log q.toGlobals) := by
  refine (activateEntry_writes entry p).mono ?_ ?_
  · intro r q hends
    obtain ⟨calib, timing, t, hturns, rfl, hrun⟩ := hends
    obtain ⟨hsize, id, hnewest⟩ := (ensureCalib_newest p h.filters).of_ok hrun
    obtain ⟨_, _, _, rfl⟩ := hturns
    exact ⟨h.keys, h.built, hsize, fun _ => ⟨_, calib, id, rfl, hnewest⟩⟩
  · intro exc q hends
    obtain ⟨hturns, hrun⟩ := hends
    have hfilters := (ensureCalib_newest p h.filters).of_error hrun
    obtain ⟨_, _, _, rfl⟩ := hturns
    refine ⟨h.keys, h.built, ?_, ?_⟩
    · rw [hfilters]
      exact h.filters
    · rw [hfilters]
      exact h.active

/-! ### Entries

Finding an entry touches its key before the store is ensured, and building one touches it after;
that is where the source writes the cache, and it is why a prepare that fails may have touched its
key or not.
-/

/-- An entry that is there is touched. -/
theorem touchOf_found {entry : PreparedEntry S} (h : p.preparedCache.get? k = some entry) :
    touchOf env k c p = [k] := by
  unfold touchOf foundOrBuilt
  rw [h]
  rfl

/-- **Building an entry touches its key just where it succeeds.** -/
theorem buildEntry_follows (henv : envs env) (hk : overrideKey c.configOverrides = k.task)
    (hnone : p.preparedCache.get? k = none) (h : Follows envs log p.toGlobals) :
    Ends (buildEntry env k c) p
      (fun r q => Follows envs (log ++ touchOf env k c p) { q.toGlobals with
        preparedCache := (q.preparedCache.set k r.1).evict preparedCacheCap })
      (fun _ q => Follows envs (log ++ touchOf env k c p) q.toGlobals) := by
  refine (buildEntry_allots p).traced.mono ?_ ?_
  · intro r q hends
    obtain ⟨⟨hallots, hkey, -, htask, -⟩, hrun⟩ := hends
    have htouch : touchOf env k c p = [k] := by
      unfold touchOf foundOrBuilt
      rw [hnone, hrun]
      rfl
    have hcache : q.preparedCache = p.preparedCache := (Prod.mk.inj hallots.caches).1
    rw [htouch]
    refine (h.allots hallots).store ?_ ⟨hkey, ?_⟩
    · rw [hcache]
      exact OrderedDict.get?_eq_none.mp hnone
    · intro c' hc'
      refine ⟨env, henv, ?_⟩
      rw [← buildTask_congr env (hk.trans hc'.symm)]
      exact htask
  · intro exc q hends
    obtain ⟨hallots, hrun⟩ := hends
    have htouch : touchOf env k c p = [] := by
      unfold touchOf foundOrBuilt
      rw [hnone, hrun]
      rfl
    rw [htouch, List.append_nil]
    exact h.allots hallots

/-- **Getting or building an entry** touches what the reference says it touches, however it
ends. -/
theorem obtainEntry_follows (henv : envs env) (hk : Keyed env k c)
    (h : Follows envs log p.toGlobals) :
    Ends (obtainEntry env k c) p
      (fun _ q => Follows envs (log ++ touchOf env k c p) q.toGlobals)
      (fun _ q => Follows envs (log ++ touchOf env k c p) q.toGlobals) := by
  obtain ⟨_, _, hparts⟩ := hk.parts
  have htask : overrideKey c.configOverrides = k.task := by rw [hparts]
  unfold obtainEntry
  rw [ends_bind, ends_get]
  split
  · rename_i hnone
    refine Ends.bind (buildEntry_follows henv htask hnone h) ?_
    intro r q hq
    rw [ends_bind, ends_modify, ends_pure]
    exact ⟨hq.keys, hq.built, hq.filters, hq.active⟩
  · rename_i entry hget
    have hfound := h.find (OrderedDict.mem_keys_of_get? hget)
    rw [touchOf_found hget, ends_bind, ends_modify, ends_bind]
    refine (ensureStore_writes entry.refcatStore _ _ { p with
      preparedCache := p.preparedCache.moveToEnd k }).mono ?_ ?_
    · intro timing q hends
      obtain ⟨_, _, _, _, _, rfl, -⟩ := hends
      exact ⟨hfound.keys, hfound.built, hfound.filters, hfound.active⟩
    · intro exc q hends
      obtain ⟨_, _, rfl⟩ := hends
      exact ⟨hfound.keys, hfound.built, hfound.filters, hfound.active⟩

/-! ### Commands

The rest is passing it on: what comes before an entry touches nothing, what comes after it only
moves the filter cache, and a command is these three in a row.
-/

theorem lookUpEntry_eq (c : PrepareCommand) : lookUpEntry env c = (do
    let key ← lookUpKey env c
    let (entry, timings) ← obtainEntry env key c
    pure (key, entry, timings)) := by
  unfold lookUpEntry lookUpKey
  rw [bind_assoc]

/-- Finding the key touches nothing, and finds the prepare's own. -/
theorem lookUpKey_follows (h : Follows envs log p.toGlobals) :
    Ends (lookUpKey env c) p (fun k q => Keyed env k c ∧ Follows envs log q.toGlobals)
      (fun _ q => Follows envs log q.toGlobals) := by
  have hkey : ∀ q : Process S, Follows envs log q.toGlobals → Ends (external (prepareKey env c)) q
      (fun k q => Keyed env k c ∧ Follows envs log q.toGlobals)
      (fun _ q => Follows envs log q.toGlobals) := by
    intro q hq
    refine ends_external ?_ fun _ _ => ⟨hq.keys, hq.built, hq.filters, hq.active⟩
    exact fun k w hk => ⟨hk, hq.keys, hq.built, hq.filters, hq.active⟩
  unfold lookUpKey ensureUniverse
  rw [ends_bind, ends_bind, ends_get]
  split
  · exact hkey p h
  · rw [ends_bind]
    refine ends_external ?_ fun _ _ => ⟨h.keys, h.built, h.filters, h.active⟩
    intro _ w _
    rw [ends_modify]
    exact hkey { p with world := w, universeBuilt := true } ⟨h.keys, h.built, h.filters, h.active⟩

/-- A prepare touches its own key, where it gets that far. -/
theorem ensurePrepared_follows (henv : envs env) (h : Follows envs log p.toGlobals) :
    Ends (ensurePrepared env c) p
      (fun _ q => Follows envs (log ++ preparedTouch env c p) q.toGlobals)
      (fun _ q => Follows envs (log ++ preparedTouch env c p) q.toGlobals) := by
  unfold ensurePrepared
  rw [lookUpEntry_eq, ends_bind, ends_bind]
  refine (lookUpKey_follows h).traced.mono ?_ ?_
  · intro k q hends
    obtain ⟨⟨hk, hq⟩, hrun⟩ := hends
    have htouch : preparedTouch env c p = touchOf env k c q := by
      unfold preparedTouch
      rw [hrun]
    rw [htouch]
    refine Ends.bind (obtainEntry_follows henv hk hq) ?_
    intro r t ht
    rw [ends_pure, ends_bind]
    exact activateEntry_follows r.1 ht
  · intro exc q hends
    obtain ⟨hq, hrun⟩ := hends
    have htouch : preparedTouch env c p = [] := by
      unfold preparedTouch
      rw [hrun]
    rw [htouch, List.append_nil]
    exact hq

/-- So does a job that names a key, where the table has it. -/
theorem ensurePreparedForPush_follows (henv : envs env) (hp : Placed env p.toGlobals)
    (h : Follows envs log p.toGlobals) :
    Ends (ensurePreparedForPush env k) p
      (fun _ q => Follows envs (log ++ pushTouch env k p) q.toGlobals)
      (fun _ q => Follows envs (log ++ pushTouch env k p) q.toGlobals) := by
  unfold ensurePreparedForPush pushTouch
  rw [ends_bind, ends_get]
  split
  · rename_i hunknown
    rw [hunknown]
    dsimp only
    rw [List.append_nil]
    exact h
  · rename_i c hget
    rw [hget]
    dsimp only
    obtain ⟨_, _, hparts⟩ := (hp.commands.get? hget).parts
    have htask : overrideKey c.configOverrides = k.task := by rw [hparts]
    split
    · rename_i entry hcached
      have hfound := h.find (OrderedDict.mem_keys_of_get? hcached)
      rw [touchOf_found hcached, ends_bind, ends_modify, ends_bind]
      exact activateEntry_follows (p := { p with
        preparedCache := p.preparedCache.moveToEnd k }) entry hfound
    · rename_i hnone
      refine Ends.bind (buildEntry_follows henv htask hnone h) ?_
      intro r q hq
      rw [ends_bind, ends_modify, ends_bind]
      exact activateEntry_follows (p := { q with
        preparedCache := (q.preparedCache.set k r.1).evict preparedCacheCap }) r.1 hq

/-- The entry a job names is touched for it. -/
theorem activateFor_follows (henv : envs env) (key : Option PrepareKey)
    (hp : Placed env p.toGlobals) (h : Follows envs log p.toGlobals) :
    Ends (activateFor env key) p
      (fun _ q => Follows envs (log ++ (key.map (pushTouch env · p)).getD []) q.toGlobals)
      (fun _ q => Follows envs (log ++ (key.map (pushTouch env · p)).getD []) q.toGlobals) := by
  cases key with
  | none =>
      show Follows envs (log ++ []) p.toGlobals
      rw [List.append_nil]
      exact h
  | some k =>
      unfold activateFor
      rw [ends_bind]
      exact ensurePreparedForPush_follows henv hp h

/-- **Every command follows the log**, whether it succeeds or fails. -/
theorem body_follows (henv : envs env) (command : Command) (hp : Placed env p.toGlobals)
    (h : Follows envs log p.toGlobals) :
    Ends (body env command) p
      (fun _ q => Follows envs (log ++ touchBy env command p) q.toGlobals)
      (fun _ q => Follows envs (log ++ touchBy env command p) q.toGlobals) := by
  have hjob : ∀ key, touchBy env command p = (key.map (pushTouch env · p)).getD [] →
      Ends (activateFor env key) p
        (fun _ q => Follows envs (log ++ touchBy env command p) q.toGlobals)
        (fun _ q => Follows envs (log ++ touchBy env command p) q.toGlobals) := by
    intro key htouch
    rw [htouch]
    exact activateFor_follows henv key hp h
  refine body_ends (P := fun q => Follows envs (log ++ touchBy env command p) q.toGlobals) ?_
    (fun _ _ hq ht => hq.reads ht) ?_ ?_ ?_
  · -- What neither prepares nor runs a job touches nothing.
    intro hprepare hdefers
    have htouch : touchBy env command p = [] := by
      cases command with
      | prepare c => exact absurd rfl (hprepare c)
      | push | ingest => exact absurd hdefers (by simp [defers])
      | resolve | shutdown | other => rfl
    rw [htouch, List.append_nil]
    exact h
  · intro c heq
    subst heq
    exact ensurePrepared_follows henv h
  · intro _ _ _ key heq
    subst heq
    refine hjob key ?_
    cases key <;> rfl
  · intro _ _ _ key heq
    subst heq
    refine hjob key ?_
    cases key <;> rfl

theorem Moment.serve_follows {m : Moment S} {g : Globals S} (henv : envs m.env)
    (hp : Placed m.env g) (hg : Follows envs log g) :
    Follows envs (log ++ touchBy m.env m.command ⟨g, m.world⟩) (m.serve g) :=
  Moment.serve_ends (P := Follows envs (log ++ touchBy m.env m.command ⟨g, m.world⟩))
    (fun _ _ h => ⟨h.keys, h.built, h.filters, h.active⟩)
    (body_follows (p := ⟨g, m.world⟩) henv m.command hp hg)

end Follows

/-- Every history follows its log. -/
theorem served_follows (hsky : SameSky envs) {history : List (Moment S)}
    (henvs : ∀ m ∈ history, envs m.env) : Follows envs (touched history).2 (served history) := by
  induction history using List.reverseRecOn with
  | nil => exact follows_fresh
  | append_singleton rest m ih =>
      have hrest : ∀ m' ∈ rest, envs m'.env := fun m' hm' => henvs m' (List.mem_append_left _ hm')
      have hm : envs m.env := henvs m (by simp)
      have hstep := Moment.serve_follows hm (served_placed hsky hrest hm) (ih hrest)
      have hlog : (touched (rest ++ [m])).2 =
          (touched rest).2 ++ touchBy m.env m.command ⟨served rest, m.world⟩ := by
        rw [← touched_fst]
        unfold touched
        rw [List.foldl_append]
        rfl
      rw [hlog]
      unfold served at hstep ⊢
      rw [List.foldl_append]
      exact hstep

/-- **The prepared cache is an exact LRU.**  After any history, failing commands among them,
its keys are the last few that an entry was found or built for, in the order of that last
touch, and each entry's task and shard set are those of its key.  The filter cache is
bounded, and the filter half of an active config is the newest there, so the next one that
is loaded does not evict it. -/
theorem prepared_cache_exact (hsky : SameSky envs) {history : List (Moment S)}
    (henvs : ∀ m ∈ history, envs m.env) :
    (served history).preparedCache.keys = recent preparedCacheCap (touched history).2 ∧
    ((served history).preparedCache.Forall fun k entry => entry.Built envs k ∧
      ((served history).stores entry.refcatStore).shardIds = k.refcat) ∧
    (served history).filterCalibCache.size ≤ calibCacheCap ∧
    ((served history).activeKey ≠ none → ∃ physicalFilter calib id,
      (served history).calibStore = some (physicalFilter, calib) ∧
      (served history).filterCalibCache.newest = some (id, calib.filtered) ∧
      ∀ id' ∉ (served history).filterCalibCache.keys, ∀ loaded,
        (id, calib.filtered) ∈
          (((served history).filterCalibCache.set id' loaded).evict calibCacheCap).entries) := by
  have hfollows := served_follows hsky henvs
  refine ⟨hfollows.keys, ?_, hfollows.filters, ?_⟩
  · intro k entry hmem
    refine ⟨hfollows.built k entry hmem, ?_⟩
    have hne : history ≠ [] := by
      intro hnil
      rw [hnil] at hmem
      exact absurd hmem List.not_mem_nil
    have hlast : envs (history.getLast hne).env := henvs _ (List.getLast_mem hne)
    exact ((served_placed hsky henvs hlast).entries k entry hmem).refcat
  · intro hactive
    obtain ⟨physicalFilter, calib, id, hstore, hnewest⟩ := hfollows.active hactive
    exact ⟨physicalFilter, calib, id, hstore, hnewest, fun id' hid' loaded =>
      OrderedDict.mem_set_evict_of_newest hnewest hid'⟩

/-- Two prepares, the second of which finds no flats: its entry is cached all the same, and
the first one's filter half stays the live one. -/
def failedHistory : List (Moment benchStack) :=
  [benchMoment "r_57" [], benchMoment "g_6" (List.replicate 6 none ++ [some (.runtime "lost")])]

theorem prepared_cache_exact_failed :
    (touched failedHistory).2 = [benchKey "r_57", benchKey "g_6"] ∧
    (served failedHistory).activeKey = some (benchKey "r_57") ∧
    (served failedHistory).preparedCache.keys =
      recent preparedCacheCap (touched failedHistory).2 ∧
    (served failedHistory).filterCalibCache.size ≤ calibCacheCap := by
  have henvs : ∀ m ∈ failedHistory, m.env = benchEnv := by
    intro m hm
    rcases List.mem_cons.mp hm with rfl | hm
    · rfl
    · rw [List.mem_singleton.mp hm]
      rfl
  have hexact := prepared_cache_exact benchEnv_sky henvs
  exact ⟨rfl, rfl, hexact.1, hexact.2.2.1⟩

end DonutServer
