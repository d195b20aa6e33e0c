/-
The cache of level-5 parents.

`_ensure_shards` takes what is cached and loads the rest, so what it gives must not depend
on what came before.  A `Refcat` is the cache and the stores over a history of calls, in
which files may be missing for a while and any read may fail; beside them it remembers
which parents were used, in turn.  That log is what `recent use` means: the cache always
holds an end of it.

A call that raises has used the parents before the one it failed on and evicts nothing, so
the bound on the cache rests on the calls that return.
-/
import DonutServer.Lib.Recency
import DonutServer.Lib.System
import DonutServer.Coordinator.Reshard
import DonutServer.Coordinator.Isolation

namespace DonutServer

open Effect Recency

variable {S : Stack} {env : Env S}

/-! ### What a loop over parents uses

A parent is used when it is found in the cache or loaded into it, and the loop stops at the first
that is neither.  `usedOf` computes this from the cache and from the faults that lie ahead, with no
loop of its own through the state; that the code's loop uses just these is the lemma about it.
-/

/-- The parents of a list that the loop gets through, up to the first that is neither
cached nor loads.  Each load meets the next fault. -/
def usedOf (env : Env S) (cached : List Nat) : List Nat → List (Option Exn) → List Nat
  | [], _ => []
  | id :: rest, faults =>
      if id ∈ cached then id :: usedOf env cached rest faults
      else
        match faults.head?.join, reshardOne env id with
        | none, .ok _ => id :: usedOf env cached rest faults.tail
        | _, _ => []

theorem usedOf_sublist {cached ids : List Nat} :
    ∀ {faults : List (Option Exn)}, (usedOf env cached ids faults).Sublist ids := by
  induction ids with
  | nil =>
      intro faults
      exact .slnil
  | cons id rest ih =>
      intro faults
      unfold usedOf
      split
      · exact ih.cons_cons id
      · split
        · exact ih.cons_cons id
        · exact List.nil_sublist _

/-- Only whether the parents of the list are cached matters. -/
theorem usedOf_congr {cached cached' ids : List Nat} :
    ∀ {faults : List (Option Exn)}, (∀ id ∈ ids, id ∈ cached ↔ id ∈ cached') →
      usedOf env cached ids faults = usedOf env cached' ids faults := by
  induction ids with
  | nil =>
      intro faults _
      rfl
  | cons id rest ih =>
      intro faults hsame
      obtain ⟨hid, hrest⟩ := List.forall_mem_cons.mp hsame
      unfold usedOf
      simp only [hid]
      split
      · rw [ih hrest]
      · split
        · rw [ih hrest]
        · rfl

/-- Only the shard cache is written, and the parents in `used` have been used. -/
structure UsesParents (p : Process S) (used : List Nat) (q : Process S) : Prop where
  eq : ∃ cache world, q = { p with shardCache := cache, world := world }
  keys : q.shardCache.keys = touchAll p.shardCache.keys used

/-- Some parents have been used, and then some more. -/
theorem UsesParents.trans {p q r : Process S} {used used' : List Nat}
    (h : UsesParents p used q) (h' : UsesParents q used' r) :
    UsesParents p (used ++ used') r := by
  refine ⟨?_, ?_⟩
  · obtain ⟨_, _, rfl⟩ := h.eq
    obtain ⟨_, _, rfl⟩ := h'.eq
    exact ⟨_, _, rfl⟩
  · rw [h'.keys, h.keys]
    exact (List.foldl_append ..).symm

/-- No parent has been used. -/
theorem UsesParents.none (p : Process S) (w : World S) :
    UsesParents p [] { p with world := w } :=
  ⟨⟨_, _, rfl⟩, rfl⟩

/-- A parent found in the cache. -/
theorem UsesParents.hit {p : Process S} {id : Nat} (h : id ∈ p.shardCache.keys) :
    UsesParents p [id] { p with shardCache := p.shardCache.moveToEnd id } :=
  ⟨⟨_, _, rfl⟩, OrderedDict.keys_moveToEnd h⟩

/-- A parent loaded into it. -/
theorem UsesParents.load {p : Process S} {id : Nat} (children : Children S) (w : World S)
    (h : id ∉ p.shardCache.keys) :
    UsesParents p [id] { p with shardCache := p.shardCache.set id children, world := w } :=
  ⟨⟨_, _, rfl⟩, OrderedDict.keys_set_new h⟩

/-- **What the loop uses and counts.** -/
theorem ensureEachShard_uses (ids : List Nat) : ∀ (shards : Children S) (loaded : Nat)
    (p : Process S), ids.Nodup →
      Ends (ensureEachShard env ids shards loaded) p
        (fun r q => usedOf env p.shardCache.keys ids p.world.faults = ids ∧
          r.2 = loaded + (ids.filter fun id => id ∉ p.shardCache.keys).length ∧
          UsesParents p ids q)
        (fun _ q => usedOf env p.shardCache.keys ids p.world.faults ≠ ids ∧
          UsesParents p (usedOf env p.shardCache.keys ids p.world.faults) q) := by
  induction ids with
  | nil =>
      intro shards loaded p _
      exact ⟨rfl, rfl, UsesParents.none p p.world⟩
  | cons id rest ih =>
      intro shards loaded p hnodup
      obtain ⟨hid, hrest⟩ := List.nodup_cons.mp hnodup
      -- The rest of the loop runs on a cache where only `id` may be new.
      have hsame : ∀ q : Process S, UsesParents p [id] q →
          ∀ x ∈ rest, x ∈ q.shardCache.keys ↔ x ∈ p.shardCache.keys := by
        intro q hq x hx
        have hne : x ≠ id := fun h => hid (h ▸ hx)
        rw [hq.keys, mem_touchAll]
        simp [hne]
      have hnext : ∀ (q : Process S) (shards : Children S) (loaded loaded' : Nat),
          UsesParents p [id] q →
          usedOf env p.shardCache.keys (id :: rest) p.world.faults =
            id :: usedOf env p.shardCache.keys rest q.world.faults →
          loaded' + (rest.filter fun x => x ∉ p.shardCache.keys).length =
            loaded + ((id :: rest).filter fun x => x ∉ p.shardCache.keys).length →
          Ends (ensureEachShard env rest shards loaded') q
            (fun r t => usedOf env p.shardCache.keys (id :: rest) p.world.faults = id :: rest ∧
              r.2 = loaded + ((id :: rest).filter fun x => x ∉ p.shardCache.keys).length ∧
              UsesParents p (id :: rest) t)
            (fun _ t => usedOf env p.shardCache.keys (id :: rest) p.world.faults ≠ id :: rest ∧
              UsesParents p (usedOf env p.shardCache.keys (id :: rest) p.world.faults) t) := by
        intro q shards loaded loaded' hq hused hcount
        have hcached := hsame q hq
        have hcongr : usedOf env q.shardCache.keys rest q.world.faults =
            usedOf env p.shardCache.keys rest q.world.faults := usedOf_congr hcached
        have hnew : (rest.filter fun x => x ∉ q.shardCache.keys) =
            rest.filter fun x => x ∉ p.shardCache.keys :=
          List.filter_congr fun x hx => by simp [hcached x hx]
        refine (ih shards loaded' q hrest).mono ?_ ?_
        · intro r t hends
          obtain ⟨hall, hr, ht⟩ := hends
          rw [hcongr] at hall
          refine ⟨by rw [hused, hall], ?_, hq.trans ht⟩
          rw [hr, hnew, hcount]
        · intro exc t hends
          obtain ⟨hnot, ht⟩ := hends
          rw [hcongr] at hnot ht
          rw [hused]
          exact ⟨fun h => hnot (List.cons.inj h).2, hq.trans ht⟩
      unfold ensureEachShard
      rw [ends_bind, ends_get]
      split
      · rename_i hget
        have hnot : id ∉ p.shardCache.keys := OrderedDict.get?_eq_none.mp hget
        rw [ends_bind]
        unfold Ends
        rw [external_outcome]
        rcases hfault : p.world.faults.head?.join with _ | exc
        · rcases hload : reshardOne env id with exc | children
          · have hused : usedOf env p.shardCache.keys (id :: rest) p.world.faults = [] := by
              unfold usedOf
              rw [if_neg hnot, hfault, hload]
            show usedOf env _ (id :: rest) _ ≠ _ ∧ _
            rw [hused]
            exact ⟨by simp, UsesParents.none p _⟩
          · dsimp only
            refine (ends_bind ..).mpr ?_
            rw [ends_modify]
            refine hnext _ _ loaded _ (UsesParents.load children _ hnot) ?_ ?_
            · show usedOf env _ (id :: rest) p.world.faults = _
              rw [usedOf, if_neg hnot, hfault, hload]
              rfl
            · simp [hnot]
              omega
        · have hused : usedOf env p.shardCache.keys (id :: rest) p.world.faults = [] := by
            unfold usedOf
            rw [if_neg hnot, hfault]
          show usedOf env _ (id :: rest) _ ≠ _ ∧ _
          rw [hused]
          exact ⟨by simp, UsesParents.none p _⟩
      · rename_i children hget
        have hin := OrderedDict.mem_keys_of_get? hget
        rw [ends_bind, ends_modify]
        refine hnext _ _ loaded _ (UsesParents.hit hin) ?_ ?_
        · rw [usedOf, if_pos hin]
        · simp [hin]

/-- **What `_ensure_shards` leaves in the cache.**  Where it returns, every wanted parent has
been used and the cache cut back; where it raises, it has not been. -/
theorem ensureShards_uses (env : Env S) (wanted : Finset Nat) (p : Process S) :
    Ends (ensureShards env wanted) p
      (fun r q => usedOf env p.shardCache.keys (sortedIds wanted) p.world.faults = sortedIds wanted ∧
        r.2 = ((sortedIds wanted).filter fun id => id ∉ p.shardCache.keys).length ∧
        q.shardCache.keys =
          (touchAll p.shardCache.keys (sortedIds wanted)).rtake shardCacheCap ∧
        ∃ cache world, q = { p with shardCache := cache, world := world })
      (fun _ q => usedOf env p.shardCache.keys (sortedIds wanted) p.world.faults ≠ sortedIds wanted ∧
        UsesParents p (usedOf env p.shardCache.keys (sortedIds wanted) p.world.faults) q) := by
  unfold ensureShards
  refine Ends.bind (ensureEachShard_uses _ _ _ p (nodup_sortedIds wanted)) ?_
  intro r q hends
  obtain ⟨hall, hcount, hq⟩ := hends
  rw [ends_bind, ends_modify, ends_pure]
  obtain ⟨cache, world, hqeq⟩ := hq.eq
  refine ⟨hall, by rw [hcount, Nat.zero_add], ?_, _, _, by rw [hqeq]⟩
  show (q.shardCache.evict shardCacheCap).keys = _
  rw [OrderedDict.keys_evict, hq.keys]

/-- Where nothing goes wrong outside, the loop comes to what reading every file comes to. -/
theorem ensureEachShard_outcome (ids : List Nat) : ∀ (shards : Children S) (loaded : Nat)
    (p : Process S), p.world.faults = [] →
      (p.shardCache.Forall fun id children => reshardOne env id = .ok children) →
      ((ensureEachShard env ids shards loaded).outcome p).1.map Prod.fst =
        loadEachShard env ids shards := by
  induction ids with
  | nil =>
      intro shards loaded p _ _
      rfl
  | cons id rest ih =>
      intro shards loaded p hfaults hp
      unfold ensureEachShard loadEachShard
      rw [outcome_bind, outcome_get]
      dsimp only
      split
      · rw [outcome_bind, external_outcome, hfaults]
        rcases hload : reshardOne env id with exc | children
        · rfl
        · refine ih _ _ _ ?_ (hp.set hload)
          show p.world.faults.tail = []
          rw [hfaults]
          rfl
      · rename_i children hget
        rw [outcome_bind, outcome_modify, hp.get? hget]
        exact ih _ _ _ hfaults (hp.moveToEnd id)

theorem ensureShards_outcome (wanted : Finset Nat) {p : Process S} (hfaults : p.world.faults = [])
    (hp : p.shardCache.Forall fun id children => reshardOne env id = .ok children) :
    ((ensureShards env wanted).outcome p).1.map Prod.fst =
      loadAndReshard env (sortedIds wanted) := by
  unfold loadAndReshard
  rw [← ensureEachShard_outcome (sortedIds wanted) .empty 0 p hfaults hp]
  unfold ensureShards
  rw [outcome_bind]
  rcases (ensureEachShard env (sortedIds wanted) .empty 0).outcome p with ⟨_ | _, _⟩
  · rfl
  · rfl

/-! ### One call of `RefCatStore.ensure`

`ensure` does nothing where the store has the shards already.  Otherwise it calls `_ensure_shards`
and puts what that gives into the store, all at once; so a call that raises leaves the store with
what it held.
-/

/-- A store and the count of its rows are what its shard set says. -/
structure RefCatStore.Filled (env : Env S) (store : RefCatStore S) : Prop where
  loaded : store.Loaded env
  rows : store.nRows = (store.shards.entries.map fun e => e.2.length).sum

theorem RefCatStore.filled_new : (RefCatStore.new : RefCatStore S).Filled env :=
  ⟨RefCatStore.loaded_new, rfl⟩

/-- What `ensure` asks `_ensure_shards` for, and the world it does so in. -/
def ensureAsks (env : Env S) (store : StoreId) (ra dec : ℚ) (p : Process S) :
    Option (Finset Nat × World S) :=
  match (external (shardIdsForPointing env ra dec)).outcome p with
  | (.ok ids, q) =>
      if ids.toFinset = (p.stores store).shardIds then none else some (ids.toFinset, q.world)
  | (.error _, _) => none

/-- The store a call of `_ensure_shards` that returned leaves. -/
def refilled (wanted : Finset Nat) (shards : Children S) : RefCatStore S :=
  ⟨wanted, shards, (shards.entries.map fun e => e.2.length).sum⟩

/-- **What `ensure` makes of what `_ensure_shards` gives it.** -/
theorem ensureStore_asks (env : Env S) (store : StoreId) (ra dec : ℚ) (p : Process S) :
    Ends (ensureStore env store ra dec) p
      (fun timing q => ∃ ids, shardIdsForPointing env ra dec = .ok ids ∧
        timing.nRows = (q.stores store).nRows ∧
        ((ensureAsks env store ra dec p = none ∧ ids.toFinset = (p.stores store).shardIds ∧
            ∃ w, q = { p with world := w }) ∨
          ∃ w r t, ensureAsks env store ra dec p = some (ids.toFinset, w) ∧
            (ensureShards env ids.toFinset).outcome { p with world := w } = (.ok r, t) ∧
            q = { t with stores := Function.update t.stores store (refilled ids.toFinset r.1) }))
      (fun _ q => (ensureAsks env store ra dec p = none ∧ ∃ w, q = { p with world := w }) ∨
        ∃ wanted w exc, ensureAsks env store ra dec p = some (wanted, w) ∧
          (ensureShards env wanted).outcome { p with world := w } = (.error exc, q)) := by
  unfold ensureStore ensureAsks
  rw [ends_bind]
  unfold Ends
  rcases hpoint : (external (shardIdsForPointing env ra dec)).outcome p with ⟨exc | ids, q⟩
  · rw [external_outcome] at hpoint
    obtain ⟨-, rfl⟩ := Prod.mk.inj hpoint
    exact Or.inl ⟨rfl, _, rfl⟩
  · rw [external_outcome] at hpoint
    obtain ⟨hids, rfl⟩ := Prod.mk.inj hpoint
    have hids : shardIdsForPointing env ra dec = .ok ids := by
      rcases hfault : p.world.faults.head?.join with _ | exc
      · rw [hfault] at hids
        exact hids
      · rw [hfault] at hids
        exact absurd hids (by simp)
    show Ends _ { p with world := p.world.faced } _ _
    simp only [ends_bind, ends_get]
    by_cases hreused : ids.toFinset = (p.stores store).shardIds
    · rw [if_pos hreused]
      simp only [hreused, decide_true, if_true]
      exact ⟨ids, hids, rfl, Or.inl ⟨trivial, hreused, _, rfl⟩⟩
    · rw [if_neg hreused]
      simp only [hreused, decide_false]
      unfold refillStore
      simp only [if_false, ends_bind, ends_modify, ends_pure]
      unfold Ends
      rcases hrun : (ensureShards env ids.toFinset).outcome { p with world := p.world.faced } with
        ⟨exc | r, t⟩
      · exact Or.inr ⟨_, _, exc, rfl, hrun⟩
      · exact ⟨ids, hids, rfl, Or.inr ⟨_, r, t, rfl, hrun, rfl⟩⟩

end DonutServer
