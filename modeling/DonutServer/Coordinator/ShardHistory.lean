/-
The shard cache over histories of calls.

A `Refcat` is the cache and the stores as any sequence of calls leaves them.  Files may be
missing for a while and any read may fail; what a file may not do is change what it holds.

Transparency is read off three facts about every `Refcat` reached: what is cached is what
reading the file gives, each store is what its shard set says, and the keys of the cache
are an end of the log of uses.  The bound on the cache is another matter: a call that
raises leaves what it loaded before, and nothing is evicted until one returns.
-/
import Mathlib.Algebra.BigOperators.Group.Finset.Basic
import DonutServer.Coordinator.ShardCache

namespace DonutServer

open Effect Recency

variable {S : Stack} {env : Env S}

/-! ### Histories

The calls of a history are made by prepares and by jobs, of which nothing else matters here:
between two of them the process may be anything that has the same cache and the same stores.  That
is more than a real process does, and it spares this module all of the rest of a command.
-/

/-- A call that may change the cache or a store. -/
inductive RefcatCall
  | shards (wanted : Finset Nat)
  | ensure (store : StoreId) (ra dec : ℚ)

/-- A call, with the process it is made in and the files as they are then. -/
structure RefcatMoment (S : Stack) where
  env : Env S
  process : Process S
  call : RefcatCall

/-- The process once the call is over. -/
def RefcatMoment.after (m : RefcatMoment S) : Process S :=
  match m.call with
  | .shards wanted => ((ensureShards m.env wanted).outcome m.process).2
  | .ensure store ra dec => ((ensureStore m.env store ra dec).outcome m.process).2

/-- The set a call asks `_ensure_shards` for, and the world it does so in. -/
def RefcatMoment.asks (m : RefcatMoment S) : Option (Finset Nat × World S) :=
  match m.call with
  | .shards wanted => some (wanted, m.process.world)
  | .ensure store ra dec => ensureAsks m.env store ra dec m.process

/-- The parents it uses, in turn. -/
def RefcatMoment.used (m : RefcatMoment S) : List Nat :=
  match m.asks with
  | none => []
  | some (wanted, w) => usedOf m.env m.process.shardCache.keys (sortedIds wanted) w.faults

/-- The cache, the stores, and the parents used so far, oldest first. -/
structure Refcat (S : Stack) where
  cache : OrderedDict Nat (Children S)
  stores : StoreId → RefCatStore S
  uses : List Nat

/-- The histories there are.  Between two calls the process may do anything else. -/
def refcatSystem (S : Stack) : System (Refcat S) (RefcatMoment S) where
  init r := r = ⟨.empty, fun _ => .new, []⟩
  step r m r' := m.process.shardCache = r.cache ∧ m.process.stores = r.stores ∧
    r' = ⟨m.after.shardCache, m.after.stores, r.uses ++ m.used⟩

/-- **What a call leaves**, by what became of `_ensure_shards`. -/
theorem RefcatMoment.after_cases (m : RefcatMoment S) :
    (m.asks = none ∧ m.after.shardCache = m.process.shardCache ∧
      m.after.stores = m.process.stores) ∨
    (∃ wanted w r t, m.asks = some (wanted, w) ∧
      (ensureShards m.env wanted).outcome { m.process with world := w } = (.ok r, t) ∧
      m.after.shardCache = t.shardCache ∧
      (m.after.stores = m.process.stores ∨
        ∃ store, m.after.stores = Function.update m.process.stores store (refilled wanted r.1))) ∨
    ∃ wanted w exc t, m.asks = some (wanted, w) ∧
      (ensureShards m.env wanted).outcome { m.process with world := w } = (.error exc, t) ∧
      m.after.shardCache = t.shardCache ∧ m.after.stores = m.process.stores := by
  obtain ⟨env, p, call⟩ := m
  have hsame : ∀ (wanted : Finset Nat) (w : World S) (x : Except Exn (Children S × Nat))
      (t : Process S), (ensureShards env wanted).outcome { p with world := w } = (x, t) →
        t.stores = p.stores := by
    intro wanted w x t hrun
    have huses := ensureShards_uses env wanted { p with world := w }
    cases x with
    | ok r =>
        obtain ⟨_, _, rfl⟩ := (huses.of_ok hrun).2.2.2
        rfl
    | error exc =>
        obtain ⟨_, _, rfl⟩ := (huses.of_error hrun).2.eq
        rfl
  cases call with
  | shards wanted =>
      rcases hrun : (ensureShards env wanted).outcome p with ⟨exc | r, t⟩
      · refine Or.inr (Or.inr ⟨wanted, p.world, exc, t, rfl, hrun, ?_, ?_⟩)
        · show ((ensureShards env wanted).outcome p).2.shardCache = _
          rw [hrun]
        · show ((ensureShards env wanted).outcome p).2.stores = _
          rw [hrun]
          exact hsame wanted p.world _ _ hrun
      · refine Or.inr (Or.inl ⟨wanted, p.world, r, t, rfl, hrun, ?_, Or.inl ?_⟩)
        · show ((ensureShards env wanted).outcome p).2.shardCache = _
          rw [hrun]
        · show ((ensureShards env wanted).outcome p).2.stores = _
          rw [hrun]
          exact hsame wanted p.world _ _ hrun
  | ensure store ra dec =>
      have hends := ensureStore_asks env store ra dec p
      rcases hrun : (ensureStore env store ra dec).outcome p with ⟨exc | timing, q⟩
      · have hafter : RefcatMoment.after ⟨env, p, .ensure store ra dec⟩ = q := congrArg Prod.snd hrun
        rw [hafter]
        rcases hends.of_error hrun with ⟨hasks, _, rfl⟩ | ⟨wanted, w, exc, hasks, hshards⟩
        · exact Or.inl ⟨hasks, rfl, rfl⟩
        · exact Or.inr (Or.inr ⟨wanted, w, exc, q, hasks, hshards, rfl, hsame wanted w _ _ hshards⟩)
      · have hafter : RefcatMoment.after ⟨env, p, .ensure store ra dec⟩ = q := congrArg Prod.snd hrun
        rw [hafter]
        obtain ⟨ids, -, -, hcase⟩ := hends.of_ok hrun
        rcases hcase with ⟨hasks, -, _, rfl⟩ | ⟨w, r, t, hasks, hshards, rfl⟩
        · exact Or.inl ⟨hasks, rfl, rfl⟩
        · refine Or.inr (Or.inl ⟨ids.toFinset, w, r, t, hasks, hshards, rfl, Or.inr ⟨store, ?_⟩⟩)
          rw [hsame _ w _ _ hshards]

/-- The call got through all it asked for. -/
def RefcatMoment.Completes (m : RefcatMoment S) : Prop :=
  ∃ wanted w, m.asks = some (wanted, w) ∧ m.used = sortedIds wanted

/-- **The keys of the cache after a call**: what it used stands last, and where it got
through all it asked for the cache is cut back. -/
theorem RefcatMoment.after_keys (m : RefcatMoment S) :
    (m.Completes → m.after.shardCache.keys =
      (touchAll m.process.shardCache.keys m.used).rtake shardCacheCap) ∧
    (¬ m.Completes → m.after.shardCache.keys = touchAll m.process.shardCache.keys m.used) := by
  have hsome : ∀ wanted w, m.asks = some (wanted, w) →
      m.used = usedOf m.env m.process.shardCache.keys (sortedIds wanted) w.faults := by
    intro wanted w hasks
    unfold used
    rw [hasks]
  rcases m.after_cases with ⟨hasks, hcache, -⟩ | ⟨wanted, w, r, t, hasks, hrun, hcache, -⟩ |
    ⟨wanted, w, exc, t, hasks, hrun, hcache, -⟩
  · have hused : m.used = [] := by
      unfold used
      rw [hasks]
    refine ⟨?_, ?_⟩
    · intro hcompletes
      obtain ⟨_, _, hasks', _⟩ := hcompletes
      exact absurd (hasks.symm.trans hasks') (by simp)
    · intro _
      rw [hcache, hused]
      rfl
  · obtain ⟨hall, -, hkeys, -⟩ := (ensureShards_uses m.env wanted
      { m.process with world := w }).of_ok hrun
    have hused : m.used = sortedIds wanted := (hsome wanted w hasks).trans hall
    refine ⟨?_, ?_⟩
    · intro _
      rw [hcache, hkeys, hused]
    · intro hnot
      exact absurd ⟨wanted, w, hasks, hused⟩ hnot
  · obtain ⟨hnot, huses⟩ := (ensureShards_uses m.env wanted
      { m.process with world := w }).of_error hrun
    refine ⟨?_, ?_⟩
    · intro hcompletes
      obtain ⟨wanted', w', hasks', hused⟩ := hcompletes
      obtain ⟨rfl, rfl⟩ := Prod.mk.inj (Option.some.inj (hasks.symm.trans hasks'))
      exact absurd ((hsome wanted w hasks).symm.trans hused) hnot
    · intro _
      rw [hcache, huses.keys, hsome wanted w hasks]

/-! ### What every history keeps

The first two parts say that nothing wrong is held, and the third that what is held is what was
used last.  The third needs the log, and the log needs it: which parents the next call uses depends
on what is cached.
-/

/-- What is cached is what reading the files gives, the stores are what their shard sets
say, and the cache holds the parents used last. -/
structure Refcat.Sound (env : Env S) (r : Refcat S) : Prop where
  reads : r.cache.Forall fun id children => reshardOne env id = .ok children
  stores : ∀ i, (r.stores i).Filled env
  recency : r.cache.keys <:+ r.uses.dedup

/-- At first there is nothing in it. -/
theorem Refcat.sound_init : (⟨.empty, fun _ => .new, []⟩ : Refcat S).Sound env :=
  ⟨OrderedDict.forall_empty _, fun _ => RefCatStore.filled_new, List.suffix_refl _⟩

/-- **One call keeps a sound cache sound**, whether it returns or raises. -/
theorem Refcat.Sound.step {r r' : Refcat S} {m : RefcatMoment S} (h : r.Sound env)
    (hfiles : FilesKept m.env env) (hstep : (refcatSystem S).step r m r') : r'.Sound env := by
  obtain ⟨hcache, hstores, rfl⟩ := hstep
  have hreads : m.process.shardCache.Forall fun id children => reshardOne env id = .ok children := by
    rw [hcache]
    exact h.reads
  have hrecent : m.after.shardCache.keys <:+ (r.uses ++ m.used).dedup := by
    have hend := touchAll_suffix h.recency m.used
    rw [← hcache] at hend
    by_cases hcompletes : m.Completes
    · rw [m.after_keys.1 hcompletes]
      exact (rtake_suffix _ _).trans hend
    · rw [m.after_keys.2 hcompletes]
      exact hend
  have hfilled : ∀ i, (m.process.stores i).Filled env := by
    rw [hstores]
    exact h.stores
  rcases m.after_cases with ⟨-, hafter, hkept⟩ | ⟨wanted, w, x, t, -, hrun, hafter, hkept⟩ |
    ⟨wanted, w, exc, t, -, hrun, hafter, hkept⟩
  · exact ⟨by rw [hafter]; exact hreads, by rw [hkept]; exact hfilled, hrecent⟩
  · obtain ⟨htouch, hload⟩ := (ensureShards_ends hfiles wanted
      { m.process with world := w } hreads).of_ok hrun
    refine ⟨by rw [hafter]; exact htouch.shards, ?_, hrecent⟩
    rcases hkept with hkept | ⟨store, hkept⟩
    · rw [hkept]
      exact hfilled
    · have hupdated : ∀ i, RefCatStore.Filled env
          (Function.update m.process.stores store (refilled wanted x.1) i) := by
        intro i
        by_cases hi : i = store
        · rw [hi, Function.update_self]
          exact ⟨hload, rfl⟩
        · rw [Function.update_of_ne hi]
          exact hfilled i
      rw [hkept]
      exact hupdated
  · have htouch := (ensureShards_ends hfiles wanted { m.process with world := w } hreads).of_error hrun
    exact ⟨by rw [hafter]; exact htouch.shards, by rw [hkept]; exact hfilled, hrecent⟩

/-- Every history is sound at every point. -/
theorem Refcat.reach_sound {r : Refcat S}
    (h : (refcatSystem S).Reach (fun _ m _ => FilesKept m.env env) r) : r.Sound env := by
  refine h.invariant ?_ ?_
  · intro r heq
    subst heq
    exact Refcat.sound_init
  · intro r m r' hr hfiles hstep
    exact hr.step hfiles hstep

/-! ### Transparency

A call that returns has looked at every parent that was asked for.  What it found cached is what
reading gives, by the invariant, and what it loaded it has read; then the evicted ones were used
longer ago than all that is left.
-/

theorem card_filter_sortedIds (ids : Finset Nat) (p : Nat → Prop) [DecidablePred p] :
    ((sortedIds ids).filter fun id => p id).length = (ids.filter p).card := by
  rw [← Multiset.coe_card, ← Multiset.filter_coe, sortedIds_perm]
  rfl

theorem sum_sortedIds (ids : Finset Nat) (f : Nat → Nat) :
    ((sortedIds ids).map f).sum = ∑ id ∈ ids, f id := by
  rw [← Multiset.sum_coe, ← Multiset.map_coe, sortedIds_perm]
  rfl

/-- What one call of `_ensure_shards` gives and leaves where it returns: the shards that
loading every file afresh gives, a partition of the rows of those files, a true count of
what was loaded, and a cache that only parents used longer ago than the rest have left. -/
structure Transparent (env : Env S) (r : Refcat S) (wanted : Finset Nat)
    (result : Children S × Nat) (cache : OrderedDict Nat (Children S)) : Prop where
  afresh : loadAndReshard env (sortedIds wanted) = .ok result.1
  partitions : Partitions env wanted result.1
  rows : (result.1.entries.map fun e => e.2.length).sum = ∑ id ∈ wanted, (fileRows env id).length
  counts : (wanted.filter fun id => id ∈ r.cache.keys).card + result.2 = wanted.card
  kept : wanted.card ≤ shardCacheCap → ∀ id ∈ wanted, id ∈ cache.keys
  evicted : ∀ id, id ∈ r.cache.keys ∨ id ∈ wanted → id ∉ cache.keys → ∀ id' ∈ cache.keys,
    LastUsedBefore (r.uses ++ sortedIds wanted) id id'

/-- A parent wanted or held that is gone was used longer ago than any that is left. -/
theorem Refcat.Sound.evicted {r : Refcat S} (hsound : r.Sound env) {wanted : Finset Nat}
    {keys : List Nat}
    (hkeys : keys = (touchAll r.cache.keys (sortedIds wanted)).rtake shardCacheCap) {id id' : Nat}
    (hheld : id ∈ r.cache.keys ∨ id ∈ wanted) (hgone : id ∉ keys) (hid' : id' ∈ keys) :
    LastUsedBefore (r.uses ++ sortedIds wanted) id id' := by
  have hend := touchAll_suffix hsound.recency (sortedIds wanted)
  have htouched : id ∈ touchAll r.cache.keys (sortedIds wanted) := by
    rw [mem_touchAll, mem_sortedIds]
    exact hheld.symm
  rw [hkeys] at hgone hid'
  exact lastUsedBefore_of_suffix ((rtake_suffix _ _).trans hend)
    (List.mem_dedup.mp (hend.subset htouched)) hgone hid'

/-- A call that returns is transparent, and one that raises evicts nothing. -/
theorem ensureShards_transparent {r : Refcat S} (hparent : ParentRows env) (hsound : r.Sound env)
    {p : Process S} (hcache : p.shardCache = r.cache) (wanted : Finset Nat) :
    Ends (ensureShards env wanted) p
      (fun result q => Transparent env r wanted result q.shardCache)
      (fun _ q => ∀ id ∈ p.shardCache.keys, id ∈ q.shardCache.keys) := by
  have hreads : p.shardCache.Forall fun id children => reshardOne env id = .ok children := by
    rw [hcache]
    exact hsound.reads
  refine (ensureShards_ends (.refl env) wanted p hreads).traced.mono ?_ ?_
  · intro result q hends
    obtain ⟨⟨-, hload⟩, hrun⟩ := hends
    obtain ⟨-, hcount, hkeys, -⟩ := (ensureShards_uses env wanted p).of_ok hrun
    have hparts := loadAndReshard_partitions hparent hload
    rw [hcache] at hcount hkeys
    refine ⟨hload, hparts, by rw [hparts.rows, sum_sortedIds], ?_, ?_, ?_⟩
    · rw [hcount, card_filter_sortedIds]
      exact Finset.card_filter_add_card_filter_not _
    · intro hfits id hid
      rw [hkeys, touchAll_eq (nodup_sortedIds wanted), rtake_append _ (by
        rw [length_sortedIds]
        exact hfits)]
      exact List.mem_append_right _ (mem_sortedIds.mpr hid)
    · exact fun id hheld hgone id' hid' => hsound.evicted hkeys hheld hgone hid'
  · intro exc q hends
    obtain ⟨-, hrun⟩ := hends
    obtain ⟨-, huses⟩ := (ensureShards_uses env wanted p).of_error hrun
    intro id hid
    rw [huses.keys, mem_touchAll]
    exact Or.inr hid

/-- A store that is as its shard set says has as many rows as the files. -/
theorem RefCatStore.Filled.counts {store : RefCatStore S} (hparent : ParentRows env)
    (h : store.Filled env) : store.nRows = ∑ id ∈ store.shardIds, (fileRows env id).length := by
  rw [h.rows, (loadAndReshard_partitions hparent h.loaded).rows, sum_sortedIds]

/-- `RefCatStore.ensure` counts the rows of the files, or leaves every store as it was. -/
theorem ensureStore_counts {p : Process S} (hparent : ParentRows env)
    (hreads : p.shardCache.Forall fun id children => reshardOne env id = .ok children)
    (store : StoreId) (hfilled : (p.stores store).Filled env) (ra dec : ℚ) :
    Ends (ensureStore env store ra dec) p
      (fun timing _ => ∃ ids, shardIdsForPointing env ra dec = .ok ids ∧
        timing.nRows = ∑ id ∈ ids.toFinset, (fileRows env id).length)
      (fun _ q => q.stores = p.stores) := by
  refine (ensureStore_asks env store ra dec p).mono ?_ ?_
  · intro timing q hends
    obtain ⟨ids, hids, hrows, hcase⟩ := hends
    refine ⟨ids, hids, ?_⟩
    rw [hrows]
    rcases hcase with ⟨-, hset, _, rfl⟩ | ⟨w, result, t, -, hrun, rfl⟩
    · rw [hset]
      exact hfilled.counts hparent
    · obtain ⟨-, hload⟩ := (ensureShards_ends (.refl env) ids.toFinset
        { p with world := w } hreads).of_ok hrun
      have hrefilled : (refilled ids.toFinset result.1).Filled env := ⟨hload, rfl⟩
      show (Function.update t.stores store _ store).nRows = _
      rw [Function.update_self]
      exact hrefilled.counts hparent
  · intro exc q hends
    rcases hends with ⟨-, _, rfl⟩ | ⟨wanted, w, exc', -, hrun⟩
    · rfl
    · obtain ⟨_, _, rfl⟩ := ((ensureShards_uses env wanted
        { p with world := w }).of_error hrun).2.eq
      rfl

/-- **The shard cache is transparent.**  After any history of calls, failed ones among them,
`_ensure_shards` gives what loading and resharding the wanted files afresh gives, and it
raises what that raises where nothing goes wrong outside.  A call that raises evicts
nothing; and `RefCatStore.ensure` counts the rows of the files, or leaves every store as it
was. -/
theorem shard_cache_transparent {r : Refcat S} (hparent : ParentRows env)
    (hr : (refcatSystem S).Reach (fun _ m _ => FilesKept m.env env) r) {p : Process S}
    (hcache : p.shardCache = r.cache) (hstores : p.stores = r.stores) :
    (∀ wanted, p.world.faults = [] → ((ensureShards env wanted).outcome p).1.map Prod.fst =
      loadAndReshard env (sortedIds wanted)) ∧
    (∀ wanted, Ends (ensureShards env wanted) p
      (fun result q => Transparent env r wanted result q.shardCache)
      (fun _ q => ∀ id ∈ p.shardCache.keys, id ∈ q.shardCache.keys)) ∧
    ∀ store ra dec, Ends (ensureStore env store ra dec) p
      (fun timing _ => ∃ ids, shardIdsForPointing env ra dec = .ok ids ∧
        timing.nRows = ∑ id ∈ ids.toFinset, (fileRows env id).length)
      (fun _ q => q.stores = p.stores) := by
  have hsound := Refcat.reach_sound hr
  have hreads : p.shardCache.Forall fun id children => reshardOne env id = .ok children := by
    rw [hcache]
    exact hsound.reads
  refine ⟨fun wanted hfaults => ensureShards_outcome wanted hfaults hreads,
    ensureShards_transparent hparent hsound hcache, ?_⟩
  intro store ra dec
  refine ensureStore_counts hparent hreads store ?_ ra dec
  rw [hstores]
  exact hsound.stores store

/-! ### The bound

A call that returns has cut the cache back to its cap.  One that raises has added what it loaded
before it failed and cut nothing, and the next call may fail as well; so whether the bound is kept
is a matter of what each call loads, and of nothing that comes later.
-/

/-- A call either gets through all it asks for, or what it loads before it fails still fits
beside what is cached. -/
def RefcatMoment.Fits (m : RefcatMoment S) : Prop :=
  ∀ wanted w, m.asks = some (wanted, w) → m.used = sortedIds wanted ∨
    m.process.shardCache.size + (m.used.filter fun id => id ∉ m.process.shardCache.keys).length ≤
      shardCacheCap

/-- No parent is used twice in a call. -/
theorem RefcatMoment.used_nodup (m : RefcatMoment S) : m.used.Nodup := by
  unfold used
  split
  · exact List.nodup_nil
  · rename_i wanted w _
    exact (nodup_sortedIds wanted).sublist usedOf_sublist

/-- **One call keeps the bound just where it fits.** -/
theorem RefcatMoment.bounded_iff {m : RefcatMoment S}
    (h : m.process.shardCache.size ≤ shardCacheCap) :
    m.after.shardCache.size ≤ shardCacheCap ↔ m.Fits := by
  rw [OrderedDict.size_eq_length]
  by_cases hcompletes : m.Completes
  · rw [m.after_keys.1 hcompletes, length_rtake]
    refine ⟨fun _ => ?_, fun _ => Nat.min_le_left _ _⟩
    obtain ⟨wanted, w, hasks, hused⟩ := hcompletes
    intro wanted' w' hasks'
    obtain ⟨rfl, rfl⟩ := Prod.mk.inj (Option.some.inj (hasks.symm.trans hasks'))
    exact Or.inl hused
  · have hnodup : m.process.shardCache.keys.Nodup := m.process.shardCache.nodup
    rw [m.after_keys.2 hcompletes, length_touchAll hnodup m.used_nodup,
      ← OrderedDict.size_eq_length]
    refine ⟨fun hsize wanted w _ => Or.inr hsize, ?_⟩
    intro hfits
    rcases hasks : m.asks with _ | ⟨wanted, w⟩
    · have hused : m.used = [] := by
        unfold used
        rw [hasks]
      rw [hused]
      exact h
    · rcases hfits wanted w hasks with hused | hsize
      · exact absurd ⟨wanted, w, hasks, hused⟩ hcompletes
      · exact hsize

/-- **The shard cache is bounded just as long as the calls fit.**  In a history all of whose
calls fit it never holds more than its cap; and from there, one more call leaves it within
its cap if and only if that call fits. -/
theorem shard_cache_bounded {r : Refcat S} (hr : (refcatSystem S).Reach (fun _ m _ => m.Fits) r) :
    r.cache.size ≤ shardCacheCap ∧
      ∀ m r', (refcatSystem S).step r m r' → (r'.cache.size ≤ shardCacheCap ↔ m.Fits) := by
  have hkeep : ∀ (r : Refcat S) m r', r.cache.size ≤ shardCacheCap →
      (refcatSystem S).step r m r' → (r'.cache.size ≤ shardCacheCap ↔ m.Fits) := by
    intro r m r' hsize hstep
    obtain ⟨hcache, -, rfl⟩ := hstep
    rw [← hcache] at hsize
    exact RefcatMoment.bounded_iff hsize
  have hsize : r.cache.size ≤ shardCacheCap := by
    refine hr.invariant (P := fun r => r.cache.size ≤ shardCacheCap) ?_ ?_
    · intro r heq
      subst heq
      exact Nat.zero_le _
    · intro r m r' hsize hfits hstep
      exact (hkeep r m r' hsize hstep).mpr hfits
  exact ⟨hsize, fun m r' => hkeep r m r' hsize⟩

/-! ### A bench catalog

The bench has a file for every parent, in a directory of its own, and one of them may be taken
away.
-/

/-- A shard's name starts with a digit, so its path is below the directory. -/
theorem shardPath (id : Nat) :
    PyText.joinPath "/refcat" s!"{id}.fits" = s!"/refcat/{id}.fits" := by
  have hname : (s!"{id}.fits").toList = Nat.toDigits 10 id ++ ".fits".toList := by
    show (Nat.repr id ++ ".fits").toList = _
    simp [Nat.repr]
  have hhead : (s!"{id}.fits").toList.head? ≠ some '/' := by
    rw [hname]
    obtain ⟨c, rest, hdigits⟩ := List.exists_cons_of_ne_nil (Nat.toDigits_ne_nil (n := id) (b := 10))
    have hmem : c ∈ Nat.toDigits 10 id := by
      rw [hdigits]
      exact List.mem_cons_self ..
    have hdigit : c.isDigit = true := Nat.isDigit_of_mem_toDigits (by decide) (by decide) hmem
    rw [hdigits, List.cons_append, List.head?_cons]
    rintro ⟨⟩
    exact absurd hdigit (by decide)
  unfold PyText.joinPath
  rw [if_neg hhead, if_neg (by decide)]
  show "/refcat" ++ "/" ++ (Nat.repr id ++ ".fits") = "/refcat/" ++ Nat.repr id ++ ".fits"
  rw [← String.append_assoc]
  rfl

theorem benchParent_path (id : Nat) : benchParent s!"/refcat/{id}.fits" = id := by
  have hpath : (s!"/refcat/{id}.fits").toList =
      "/refcat/".toList ++ (Nat.toDigits 10 id ++ ".fits".toList) := by
    show (("/refcat/" ++ Nat.repr id) ++ ".fits").toList = _
    simp [Nat.repr]
  have hlength : ("/refcat/".toList ++ (Nat.toDigits 10 id ++ ".fits".toList)).length - 13 =
      (Nat.toDigits 10 id).length := by
    rw [List.length_append, List.length_append]
    show 8 + ((Nat.toDigits 10 id).length + 5) - 13 = _
    omega
  have hdrop : ("/refcat/".toList ++ (Nat.toDigits 10 id ++ ".fits".toList)).drop 8 =
      Nat.toDigits 10 id ++ ".fits".toList := List.drop_left' rfl
  unfold benchParent
  rw [hpath, hlength, hdrop, List.take_left' rfl]
  exact Nat.ofDigitChars_ten_toDigits

/-- The files of the bench hold rows of their own children. -/
theorem benchEnv_parentRows : ParentRows benchEnv := by
  intro id rows hrows row hrow
  obtain rfl : [PyText.joinPath "/refcat" s!"{id}.fits"] = rows := Except.ok.inj hrows
  rw [List.mem_singleton.mp hrow, shardPath]
  show 16 * id ≤ 16 * benchParent _ ∧ 16 * benchParent _ ≤ 16 * id + 15
  rw [benchParent_path]
  omega

/-- The bench with one file missing. -/
def gappyEnv : Env benchStack :=
  { benchEnv with pathExists := fun path => path ≠ "/refcat/8217.fits" }

/-- A file that is missing is one that cannot be read. -/
theorem gappyEnv_kept : FilesKept gappyEnv benchEnv := by
  intro id children h
  have hread : ∀ rows, readShard gappyEnv id = .ok rows → readShard benchEnv id = .ok rows := by
    intro rows hrows
    obtain ⟨directory, hdirectory, hrows⟩ := Except.bind_eq_ok.mp hrows
    dsimp only at hrows
    split at hrows
    · exact absurd hrows (by simp)
    · refine Except.bind_eq_ok.mpr ⟨directory, hdirectory, ?_⟩
      exact hrows
  obtain ⟨rows, hrows, h⟩ := Except.bind_eq_ok.mp h
  exact Except.bind_eq_ok.mpr ⟨rows, hread rows hrows, h⟩

/-- A call of `_ensure_shards` on the bench with the missing file. -/
def gappyCall (r : Refcat benchStack) (wanted : Finset Nat) : RefcatMoment benchStack :=
  ⟨gappyEnv, ⟨{ Globals.fresh with shardCache := r.cache, stores := r.stores }, benchWorld⟩,
    .shards wanted⟩

/-- What it leaves. -/
def afterGappy (r : Refcat benchStack) (wanted : Finset Nat) : Refcat benchStack :=
  ⟨(gappyCall r wanted).after.shardCache, (gappyCall r wanted).after.stores,
    r.uses ++ (gappyCall r wanted).used⟩

/-- A call that loads one parent and fails on the next, from nothing. -/
def gappyRefcat : Refcat benchStack :=
  afterGappy ⟨.empty, fun _ => .new, []⟩ [8216, 8217].toFinset

/-- The bench's call fits: what it loads before it fails is one parent. -/
theorem gappyCall_fits : (gappyCall ⟨.empty, fun _ => .new, []⟩ [8216, 8217].toFinset).Fits := by
  intro wanted w _
  exact Or.inr (by decide +kernel)

/-- The process that call was made in. -/
def gappyProcess : Process benchStack :=
  ⟨{ Globals.fresh with shardCache := gappyRefcat.cache, stores := gappyRefcat.stores }, benchWorld⟩

/-- One parent was cached by a call that failed; what comes next is none the worse for it. -/
theorem shard_cache_transparent_after_failure :
    gappyRefcat.cache.keys = [8216] ∧
    (∀ wanted, gappyProcess.world.faults = [] →
      ((ensureShards benchEnv wanted).outcome gappyProcess).1.map Prod.fst =
        loadAndReshard benchEnv (sortedIds wanted)) ∧
    (∀ wanted, Ends (ensureShards benchEnv wanted) gappyProcess
      (fun result q => Transparent benchEnv gappyRefcat wanted result q.shardCache)
      (fun _ q => ∀ id ∈ gappyProcess.shardCache.keys, id ∈ q.shardCache.keys)) ∧
    ∀ store ra dec, Ends (ensureStore benchEnv store ra dec) gappyProcess
      (fun timing _ => ∃ ids, shardIdsForPointing benchEnv ra dec = .ok ids ∧
        timing.nRows = ∑ id ∈ ids.toFinset, (fileRows benchEnv id).length)
      (fun _ q => q.stores = gappyProcess.stores) :=
  ⟨by decide +kernel, shard_cache_transparent benchEnv_parentRows
    (.step (.init rfl) gappyEnv_kept ⟨rfl, rfl, rfl⟩) rfl rfl⟩

/-- The same history stays within the cap. -/
theorem shard_cache_bounded_after_failure :
    gappyRefcat.cache.size ≤ shardCacheCap ∧
      ∀ m r', (refcatSystem benchStack).step gappyRefcat m r' →
        (r'.cache.size ≤ shardCacheCap ↔ m.Fits) :=
  shard_cache_bounded (.step (.init rfl) gappyCall_fits ⟨rfl, rfl, rfl⟩)

/-- Twenty-four parents fill the cache, and a call for two more that fails on the second
leaves twenty-five. -/
theorem shard_cache_unbounded : ¬ ∀ r : Refcat benchStack, (refcatSystem benchStack).Reach
    (fun _ m _ => ∀ wanted w, m.asks = some (wanted, w) → wanted.card ≤ shardCacheCap) r →
      r.cache.size ≤ shardCacheCap := by
  intro h
  have hnext : ∀ (r : Refcat benchStack) (asked : Finset Nat), asked.card ≤ shardCacheCap →
      (refcatSystem benchStack).Reach
        (fun _ m _ => ∀ wanted w, m.asks = some (wanted, w) → wanted.card ≤ shardCacheCap) r →
      (refcatSystem benchStack).Reach
        (fun _ m _ => ∀ wanted w, m.asks = some (wanted, w) → wanted.card ≤ shardCacheCap)
        (afterGappy r asked) := by
    intro r asked hcard hr
    refine .step (a := gappyCall r asked) hr ?_ ⟨rfl, rfl, rfl⟩
    intro wanted w hsome
    rw [← (Prod.mk.inj (Option.some.inj hsome)).1]
    exact hcard
  have hfull := hnext _ (List.range' 8192 24).toFinset (by decide +kernel) (.init rfl)
  have hover := hnext _ [8216, 8217].toFinset (by decide +kernel) hfull
  exact absurd (h _ hover) (by decide +kernel)

end DonutServer
