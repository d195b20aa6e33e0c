/-
Splitting level-5 files into level-7 shards.

A file of parent `N` is promised to hold rows of its sixteen children only, `16 N` to
`16 N + 15`; nothing in the code checks that, so it is a hypothesis here.  Under it the
children of different parents are different shards, and flattening them loses no row and
repeats none: what is loaded is a partition of what the files hold.
-/
import DonutServer.Coordinator.Caches

namespace DonutServer

variable {S : Stack} {env : Env S}

/-- The file of a parent only has rows of that parent's children. -/
def ParentRows (env : Env S) : Prop :=
  ∀ id rows, readShard env id = .ok rows →
    ∀ row ∈ rows, 16 * id ≤ env.lookupId row ∧ env.lookupId row ≤ 16 * id + 15

/-- The rows of a parent's file. -/
def fileRows (env : Env S) (id : Nat) : List S.Row :=
  match readShard env id with
  | .ok rows => rows
  | .error _ => []

/-- Every row of the wanted parents' files is in one shard and no other, and the shards
have nothing else. -/
structure Partitions (env : Env S) (wanted : Finset Nat) (shards : Children S) : Prop where
  covers : ∀ id ∈ wanted, ∃ rows, readShard env id = .ok rows ∧ ∀ row ∈ rows,
    ∃! k, ∃ catalog, shards.get? k = some catalog ∧ row ∈ catalog
  perm : (shards.entries.flatMap Prod.snd).Perm ((sortedIds wanted).flatMap (fileRows env))

/-! ### Sorting

Python's `sorted` of a set lists its elements once each, in order.  Of the order little is needed;
that nothing is lost and nothing repeated is what counts.
-/

/-- What is sorted is what was there. -/
theorem sortedIds_perm (ids : Finset Nat) : (sortedIds ids : Multiset Nat) = ids.val := by
  unfold sortedIds
  induction hl : ids.val using Quot.inductionOn with
  | h l => exact Quot.sound (List.perm_insertionSort _ l)

/-- Nothing is lost in it, -/
theorem mem_sortedIds {ids : Finset Nat} {id : Nat} : id ∈ sortedIds ids ↔ id ∈ ids := by
  rw [← Multiset.mem_coe, sortedIds_perm]
  exact Iff.rfl

/-- nothing is there twice, -/
theorem nodup_sortedIds (ids : Finset Nat) : (sortedIds ids).Nodup := by
  rw [← Multiset.coe_nodup, sortedIds_perm]
  exact ids.nodup

/-- and so there are as many as before. -/
theorem length_sortedIds (ids : Finset Nat) : (sortedIds ids).length = ids.card := by
  rw [← Multiset.coe_card, sortedIds_perm]
  rfl

/-! ### One file

`_reshard_one` makes one catalog of the rows of each index that occurs.  The rows are filtered once
for every index, so that each row goes to one catalog; together they are the file's rows, in
another order.
-/

/-- Sorting rows into the indices that occur loses none. -/
theorem flatMap_filter_perm {α : Type} (f : α → Nat) :
    ∀ {ks : List Nat} {l : List α}, ks.Nodup → (∀ x ∈ l, f x ∈ ks) →
      (ks.flatMap fun k => l.filter fun x => f x = k).Perm l := by
  intro ks
  induction ks with
  | nil =>
      intro l _ hall
      rw [List.eq_nil_iff_forall_not_mem.mpr fun x hx => absurd (hall x hx) List.not_mem_nil]
      exact .nil
  | cons k rest ih =>
      intro l hnodup hall
      obtain ⟨hk, hrest⟩ := List.nodup_cons.mp hnodup
      have hothers := ih (l := l.filter fun x => f x ≠ k) hrest fun x hx => by
        obtain ⟨hx, hne⟩ := List.mem_filter.mp hx
        rcases List.mem_cons.mp (hall x hx) with heq | hmem
        · exact absurd heq (of_decide_eq_true hne)
        · exact hmem
      have hsame : (rest.flatMap fun k' => (l.filter fun x => f x ≠ k).filter fun x => f x = k') =
          rest.flatMap fun k' => l.filter fun x => f x = k' := by
        refine List.flatMap_congr fun k' hk' => ?_
        rw [List.filter_filter]
        refine List.filter_congr fun x _ => ?_
        have hne : k' ≠ k := fun h => hk (h ▸ hk')
        by_cases hx : f x = k'
        · simp [hx, hne]
        · simp [hx]
      rw [hsame] at hothers
      rw [List.flatMap_cons]
      refine (hothers.append_left _).trans ?_
      have hsplit := List.filter_append_perm (fun x => decide (f x = k)) l
      simpa only [ne_eq, decide_not] using hsplit

/-- What `_reshard_one` makes of a file: its rows sorted by index. -/
theorem reshardOne_eq_ok {id : Nat} {children : Children S} (h : reshardOne env id = .ok children) :
    ∃ rows, readShard env id = .ok rows ∧
      children.entries = (sortedIds (rows.map env.lookupId).toFinset).map fun k =>
        (k, rows.filter fun row => env.lookupId row = k) := by
  unfold reshardOne at h
  obtain ⟨rows, hrows, h⟩ := Except.bind_eq_ok.mp h
  obtain ⟨built, hbuilt, h⟩ := Except.bind_eq_ok.mp h
  refine ⟨rows, hrows, ?_⟩
  obtain ⟨pairs, hfst, rfl, hpairs⟩ := Except.mapM_eq_ok.mp hbuilt
  have hmap : pairs.map Prod.snd = (sortedIds (rows.map env.lookupId).toFinset).map fun k =>
      (k, rows.filter fun row => env.lookupId row = k) := by
    rw [← hfst, List.map_map]
    refine List.map_congr_left fun pair hpair => ?_
    obtain ⟨_, -, hpair⟩ := Except.bind_eq_ok.mp (hpairs pair hpair)
    exact (Except.ok.inj hpair).symm
  have hkeys : ((OrderedDict.empty : Children S).keys ++ (pairs.map Prod.snd).map Prod.fst).Nodup := by
    rw [hmap, List.map_map]
    refine (congrArg List.Nodup (List.map_id _)).mpr ?_
    exact nodup_sortedIds _
  rw [← Except.ok.inj h, OrderedDict.entries_update hkeys, hmap]
  rfl

section OneFile

variable {id : Nat} {children : Children S}

/-- A file's shards hold its rows. -/
theorem reshardOne_perm (h : reshardOne env id = .ok children) :
    (children.entries.flatMap Prod.snd).Perm (fileRows env id) := by
  obtain ⟨rows, hrows, hentries⟩ := reshardOne_eq_ok h
  have hfile : fileRows env id = rows := by
    unfold fileRows
    rw [hrows]
  rw [hfile, hentries, List.flatMap_map]
  refine flatMap_filter_perm env.lookupId (nodup_sortedIds _) fun row hrow => ?_
  rw [mem_sortedIds, List.mem_toFinset]
  exact List.mem_map_of_mem hrow

/-- A row is in the shard of its index. -/
theorem reshardOne_index (h : reshardOne env id = .ok children) {k : Nat} {catalog : List S.Row}
    (hmem : (k, catalog) ∈ children.entries) : ∀ row ∈ catalog, env.lookupId row = k := by
  obtain ⟨rows, -, hentries⟩ := reshardOne_eq_ok h
  rw [hentries] at hmem
  obtain ⟨k', -, heq⟩ := List.mem_map.mp hmem
  obtain ⟨rfl, rfl⟩ := Prod.mk.inj heq
  intro row hrow
  exact of_decide_eq_true (List.mem_filter.mp hrow).2

/-- A shard is one of the parent's children. -/
theorem reshardOne_child (hparent : ParentRows env) (h : reshardOne env id = .ok children) {k : Nat}
    (hmem : k ∈ children.keys) : 16 * id ≤ k ∧ k ≤ 16 * id + 15 := by
  obtain ⟨rows, hrows, hentries⟩ := reshardOne_eq_ok h
  have hkeys : children.keys = sortedIds (rows.map env.lookupId).toFinset := by
    unfold OrderedDict.keys
    rw [hentries, List.map_map]
    exact List.map_id _
  rw [hkeys, mem_sortedIds, List.mem_toFinset] at hmem
  obtain ⟨row, hrow, rfl⟩ := List.mem_map.mp hmem
  exact hparent id rows hrows row hrow

end OneFile

/-! ### Many files

A shard's index says which parent it is a child of.  So the shards of different files have
different indices, and putting them into one dict replaces none; this is the only place where what
is promised of the files is used.
-/

/-- The shards of files read one after the other stand one after the other. -/
theorem loadEachShard_entries (hparent : ParentRows env) {ids : List Nat} :
    ∀ {shards result : Children S}, ids.Nodup →
      (∀ k ∈ shards.keys, ∀ id ∈ ids, ¬ (16 * id ≤ k ∧ k ≤ 16 * id + 15)) →
      loadEachShard env ids shards = .ok result →
      ∃ pairs : List (Nat × Children S), pairs.map Prod.fst = ids ∧
        (∀ x ∈ pairs, reshardOne env x.1 = .ok x.2) ∧
        result.entries = shards.entries ++ pairs.flatMap fun x => x.2.entries := by
  induction ids with
  | nil =>
      intro shards result _ _ h
      refine ⟨[], rfl, fun x hx => absurd hx List.not_mem_nil, ?_⟩
      rw [← Except.ok.inj h]
      exact (List.append_nil _).symm
  | cons id rest ih =>
      intro shards result hnodup hfree h
      obtain ⟨hid, hrest⟩ := List.nodup_cons.mp hnodup
      unfold loadEachShard at h
      obtain ⟨children, hchildren, h⟩ := Except.bind_eq_ok.mp h
      have hapart : (shards.keys ++ children.entries.map Prod.fst).Nodup := by
        refine List.nodup_append.mpr ⟨shards.nodup, children.nodup, ?_⟩
        intro k hk k' hk' heq
        exact hfree k hk id (List.mem_cons_self ..) (heq ▸ reshardOne_child hparent hchildren hk')
      have hentries := OrderedDict.entries_update hapart
      have hkeys : (shards.update children.entries).keys = shards.keys ++ children.keys := by
        unfold OrderedDict.keys
        rw [hentries, List.map_append]
      obtain ⟨pairs, hfst, hpairs, hresult⟩ := ih hrest (by
        intro k hk id' hid' hbounds
        rw [hkeys] at hk
        rcases List.mem_append.mp hk with hold | hnew
        · exact hfree k hold id' (List.mem_cons_of_mem _ hid') hbounds
        · have hchild := reshardOne_child hparent hchildren hnew
          have hne : id' ≠ id := fun heq => hid (heq ▸ hid')
          omega) h
      refine ⟨(id, children) :: pairs, congrArg (id :: ·) hfst, ?_, ?_⟩
      · exact List.forall_mem_cons.mpr ⟨hchildren, hpairs⟩
      · rw [hresult, hentries, List.append_assoc]
        rfl

/-- **Loading and resharding partitions the rows of the files.** -/
theorem loadAndReshard_partitions (hparent : ParentRows env) {wanted : Finset Nat}
    {shards : Children S} (h : loadAndReshard env (sortedIds wanted) = .ok shards) :
    Partitions env wanted shards := by
  obtain ⟨pairs, hfst, hpairs, hentries⟩ := loadEachShard_entries hparent (nodup_sortedIds wanted)
    (fun k hk => absurd hk List.not_mem_nil) h
  rw [show (OrderedDict.empty : Children S).entries = [] from rfl, List.nil_append] at hentries
  have hperm : ((pairs.flatMap fun x => x.2.entries).flatMap Prod.snd).Perm
      (pairs.flatMap fun x => fileRows env x.1) := by
    rw [List.flatMap_assoc]
    exact List.Perm.flatMap_left pairs fun x hx => reshardOne_perm (hpairs x hx)
  refine ⟨?_, ?_⟩
  · intro id hid
    have hin : id ∈ pairs.map Prod.fst := by
      rw [hfst]
      exact mem_sortedIds.mpr hid
    obtain ⟨x, hx, rfl⟩ := List.mem_map.mp hin
    obtain ⟨rows, hrows, -⟩ := reshardOne_eq_ok (hpairs x hx)
    have hfile : fileRows env x.1 = rows := by
      unfold fileRows
      rw [hrows]
    have hindex : ∀ k catalog, (k, catalog) ∈ shards.entries → ∀ row ∈ catalog,
        env.lookupId row = k := by
      intro k catalog hmem
      rw [hentries] at hmem
      obtain ⟨y, hy, hmem⟩ := List.mem_flatMap.mp hmem
      exact reshardOne_index (hpairs y hy) hmem
    refine ⟨rows, hrows, fun row hrow => ?_⟩
    have hmem : row ∈ (shards.entries.flatMap Prod.snd) := by
      rw [hentries]
      refine hperm.mem_iff.mpr (List.mem_flatMap.mpr ⟨x, hx, ?_⟩)
      rw [hfile]
      exact hrow
    obtain ⟨⟨k, catalog⟩, hkc, hrowc⟩ := List.mem_flatMap.mp hmem
    refine ⟨k, ⟨catalog, OrderedDict.get?_eq_some.mpr hkc, hrowc⟩, ?_⟩
    intro k' hk'
    obtain ⟨catalog', hget, hrow'⟩ := hk'
    rw [← hindex k catalog hkc row hrowc]
    exact (hindex k' catalog' (OrderedDict.get?_eq_some.mp hget) row hrow').symm
  · rw [hentries, ← hfst, List.flatMap_map]
    exact hperm

/-- So the shards have as many rows as the files. -/
theorem Partitions.rows {wanted : Finset Nat} {shards : Children S}
    (h : Partitions env wanted shards) :
    (shards.entries.map fun e => e.2.length).sum =
      ((sortedIds wanted).map fun id => (fileRows env id).length).sum := by
  have hlen := h.perm.length_eq
  rw [List.length_flatMap, List.length_flatMap] at hlen
  exact hlen

end DonutServer
