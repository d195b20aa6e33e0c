/-
An insertion-ordered dictionary, and the least-recently-used idiom on it.

The entries are kept oldest first, as Python keeps them: assigning to a key that
is there leaves it in place, assigning to a new one appends, and `moveToEnd` makes
an entry the newest.  Popping from the front until a bound holds then evicts the
entries touched longest ago.  That no key occurs twice is a field, so a dictionary
that repeats one cannot be built.
-/
import Mathlib.Data.List.Nodup
import Mathlib.Data.List.Perm.Subperm

/-- A dictionary that remembers the order of its entries, oldest first. -/
structure OrderedDict (α β : Type) where
  entries : List (α × β)
  nodup : (entries.map Prod.fst).Nodup
  deriving DecidableEq

namespace OrderedDict

variable {α β : Type}

/-- The empty dictionary. -/
def empty : OrderedDict α β := ⟨[], List.nodup_nil⟩

/-- The keys, oldest first. -/
def keys (d : OrderedDict α β) : List α := d.entries.map Prod.fst

/-- How many entries there are. -/
def size (d : OrderedDict α β) : Nat := d.entries.length

/-- Every entry satisfies `P`. -/
def Forall (P : α → β → Prop) (d : OrderedDict α β) : Prop :=
  ∀ k v, (k, v) ∈ d.entries → P k v

theorem eq_of_entries {d d' : OrderedDict α β} (h : d.entries = d'.entries) : d = d' := by
  cases d
  cases d'
  exact (OrderedDict.mk.injEq ..).mpr h

/-- Drop entries from the front until at most `cap` are left. -/
def dropOldest (cap : Nat) : List (α × β) → List (α × β)
  | [] => []
  | e :: rest => if cap < rest.length + 1 then dropOldest cap rest else e :: rest

theorem dropOldest_eq (cap : Nat) (l : List (α × β)) :
    dropOldest cap l = l.drop (l.length - cap) := by
  induction l with
  | nil => simp [dropOldest]
  | cons e rest ih =>
      unfold dropOldest
      split
      · rw [ih, List.length_cons, show rest.length + 1 - cap = rest.length - cap + 1 by omega,
          List.drop_succ_cons]
      · rw [List.length_cons, show rest.length + 1 - cap = 0 by omega, List.drop_zero]

/-- Evict down to `cap` entries, oldest first. -/
def evict (cap : Nat) (d : OrderedDict α β) : OrderedDict α β :=
  ⟨dropOldest cap d.entries, by
    rw [dropOldest_eq, List.map_drop]
    exact d.nodup.sublist (List.drop_sublist _ _)⟩

theorem size_evict (cap : Nat) (d : OrderedDict α β) : (d.evict cap).size ≤ cap := by
  show (dropOldest cap d.entries).length ≤ cap
  rw [dropOldest_eq, List.length_drop]
  omega

theorem mem_of_mem_evict {cap : Nat} {d : OrderedDict α β} {e : α × β}
    (h : e ∈ (d.evict cap).entries) : e ∈ d.entries := by
  have h' : e ∈ dropOldest cap d.entries := h
  rw [dropOldest_eq] at h'
  exact List.mem_of_mem_drop h'

theorem forall_empty (P : α → β → Prop) : (empty : OrderedDict α β).Forall P := by
  intro k v h
  exact absurd h List.not_mem_nil

theorem Forall.evict {P : α → β → Prop} {d : OrderedDict α β} (h : d.Forall P) (cap : Nat) :
    (d.evict cap).Forall P :=
  fun k' v' hmem => h k' v' (mem_of_mem_evict hmem)

theorem Forall.mono {P Q : α → β → Prop} {d : OrderedDict α β} (h : d.Forall P)
    (hPQ : ∀ k v, P k v → Q k v) : d.Forall Q :=
  fun k v hmem => hPQ k v (h k v hmem)

variable [DecidableEq α]

/-- The value at a key. -/
def get? (d : OrderedDict α β) (k : α) : Option β :=
  (d.entries.find? (fun e => e.1 = k)).map Prod.snd

/-- Overwrite the value at `k`, where there is one. -/
def overwrite (k : α) (v : β) (l : List (α × β)) : List (α × β) :=
  l.map fun e => if e.1 = k then (k, v) else e

theorem keys_overwrite (k : α) (v : β) (l : List (α × β)) :
    (overwrite k v l).map Prod.fst = l.map Prod.fst := by
  unfold overwrite
  rw [List.map_map]
  refine List.map_congr_left fun e _ => ?_
  by_cases h : e.1 = k
  · simp [h]
  · simp [h]

/-- `d[k] = v`: in place when the key is there, at the end when it is not. -/
def set (d : OrderedDict α β) (k : α) (v : β) : OrderedDict α β :=
  if h : k ∈ d.entries.map Prod.fst then
    ⟨overwrite k v d.entries, by rw [keys_overwrite]; exact d.nodup⟩
  else
    ⟨d.entries ++ [(k, v)], by
      rw [List.map_append]
      refine List.nodup_append.mpr ⟨d.nodup, List.nodup_singleton k, ?_⟩
      intro a ha b hb hab
      have hbk : b = k := by simpa using hb
      exact h (by rw [← hbk, ← hab]; exact ha)⟩

/-- Make the entry at `k`, if there is one, the newest. -/
def moveToEnd (d : OrderedDict α β) (k : α) : OrderedDict α β :=
  ⟨d.entries.filter (fun e => e.1 ≠ k) ++ d.entries.filter (fun e => e.1 = k), by
    have hperm : (d.entries.filter (fun e => e.1 ≠ k) ++ d.entries.filter (fun e => e.1 = k)).Perm
        d.entries := by
      refine List.perm_append_comm.trans ?_
      have := List.filter_append_perm (fun e : α × β => decide (e.1 = k)) d.entries
      simpa [decide_not] using this
    exact (hperm.map Prod.fst).nodup_iff.mpr d.nodup⟩

/-- `d.pop(k, None)`: without the entry at `k`. -/
def pop (d : OrderedDict α β) (k : α) : OrderedDict α β :=
  ⟨d.entries.filter (fun e => e.1 ≠ k), d.nodup.sublist (List.filter_sublist.map Prod.fst)⟩

/-- `dict.update`: assign every pair in turn. -/
def update (d : OrderedDict α β) (l : List (α × β)) : OrderedDict α β :=
  l.foldl (fun d e => d.set e.1 e.2) d

/-! ### What the operations leave in place

An entry that is there after an operation was there before it, or is the one that was written.  So
a property of all entries is kept when it holds of what is written.
-/

theorem mem_of_get? {d : OrderedDict α β} {k : α} {v : β} (h : d.get? k = some v) :
    (k, v) ∈ d.entries := by
  unfold get? at h
  obtain ⟨e, he, rfl⟩ := Option.map_eq_some_iff.mp h
  have hk : e.1 = k := by simpa using List.find?_some he
  rw [← hk]
  exact List.mem_of_find?_eq_some he

theorem Forall.get? {P : α → β → Prop} {d : OrderedDict α β} (h : d.Forall P) {k : α} {v : β}
    (hget : d.get? k = some v) : P k v :=
  h k v (mem_of_get? hget)

theorem mem_set {d : OrderedDict α β} {k : α} {v : β} {e : α × β}
    (h : e ∈ (d.set k v).entries) : e ∈ d.entries ∨ e = (k, v) := by
  unfold set at h
  split at h
  · obtain ⟨e', he', rfl⟩ := List.mem_map.mp h
    by_cases hk : e'.1 = k
    · rw [if_pos hk]
      exact Or.inr rfl
    · rw [if_neg hk]
      exact Or.inl he'
  · rcases List.mem_append.mp h with he | he
    · exact Or.inl he
    · exact Or.inr (by simpa using he)

theorem mem_moveToEnd {d : OrderedDict α β} {k : α} {e : α × β} :
    e ∈ (d.moveToEnd k).entries ↔ e ∈ d.entries := by
  unfold moveToEnd
  by_cases hk : e.1 = k
  · simp [hk]
  · simp [hk]

theorem Forall.set {P : α → β → Prop} {d : OrderedDict α β} (h : d.Forall P) {k : α} {v : β}
    (hnew : P k v) : (d.set k v).Forall P := by
  intro k' v' hmem
  rcases mem_set hmem with hold | heq
  · exact h k' v' hold
  · obtain ⟨rfl, rfl⟩ := Prod.mk.injEq .. ▸ heq
    exact hnew

theorem Forall.moveToEnd {P : α → β → Prop} {d : OrderedDict α β} (h : d.Forall P) (k : α) :
    (d.moveToEnd k).Forall P :=
  fun k' v' hmem => h k' v' (mem_moveToEnd.mp hmem)

/-! ### Which keys are there

The keys after an operation, apart from their order.
-/

theorem get?_ne_none {d : OrderedDict α β} {k : α} : d.get? k ≠ none ↔ k ∈ d.keys := by
  unfold get? keys
  rw [Ne, Option.map_eq_none_iff, List.find?_eq_none]
  simp

theorem mem_keys_of_get? {d : OrderedDict α β} {k : α} {v : β} (h : d.get? k = some v) :
    k ∈ d.keys := by
  refine get?_ne_none.mp ?_
  rw [h]
  exact Option.some_ne_none _

theorem mem_keys_set {d : OrderedDict α β} {k k' : α} {v : β} :
    k' ∈ (d.set k v).keys ↔ k' = k ∨ k' ∈ d.keys := by
  unfold set keys
  split
  · rename_i hk
    rw [keys_overwrite]
    constructor
    · exact Or.inr
    · intro hc
      rcases hc with rfl | h
      · exact hk
      · exact h
  · rw [List.map_append, List.mem_append]
    simp [or_comm]

/-! ### Looking a key up

Since no key occurs twice, an entry is in the dictionary just when it is what its key finds; what
is left is to say so after each operation.
-/

/-- Nothing is found in the empty dictionary. -/
@[simp] theorem get?_empty (k : α) : (empty : OrderedDict α β).get? k = none := rfl

/-- An entry is what is found at its key. -/
theorem get?_eq_some {d : OrderedDict α β} {k : α} {v : β} :
    d.get? k = some v ↔ (k, v) ∈ d.entries := by
  constructor
  · exact mem_of_get?
  · intro hmem
    have hkey : k ∈ d.keys := List.mem_map.mpr ⟨(k, v), hmem, rfl⟩
    obtain ⟨v', hget⟩ := Option.ne_none_iff_exists'.mp (get?_ne_none.mpr hkey)
    have heq := List.inj_on_of_nodup_map d.nodup (mem_of_get? hget) hmem rfl
    rw [hget, (Prod.mk.inj heq).2]

/-- A key finds nothing just when it is not there. -/
theorem get?_eq_none {d : OrderedDict α β} {k : α} : d.get? k = none ↔ k ∉ d.keys := by
  rw [← not_iff_not, not_not]
  exact get?_ne_none

/-- What an assignment leaves to be found. -/
theorem get?_set (d : OrderedDict α β) (k k' : α) (v : β) :
    (d.set k v).get? k' = if k' = k then some v else d.get? k' := by
  by_cases hk : k' = k
  · rw [if_pos hk, get?_eq_some, hk]
    unfold set
    split
    · rename_i hkey
      obtain ⟨e, he, hek⟩ := List.mem_map.mp hkey
      exact List.mem_map.mpr ⟨e, he, if_pos hek⟩
    · exact List.mem_append_right _ (List.mem_singleton.mpr rfl)
  · rw [if_neg hk]
    have hentry : ∀ v', (k', v') ∈ (d.set k v).entries ↔ (k', v') ∈ d.entries := by
      intro v'
      constructor
      · intro hmem
        rcases mem_set hmem with hold | hnew
        · exact hold
        · exact absurd (Prod.mk.inj hnew).1 hk
      · intro hmem
        unfold set
        split
        · exact List.mem_map.mpr ⟨(k', v'), hmem, if_neg hk⟩
        · exact List.mem_append_left _ hmem
    refine Option.ext fun v' => ?_
    rw [get?_eq_some, get?_eq_some]
    exact hentry v'

/-- Assigning a key that is not there appends it. -/
theorem entries_set_new {d : OrderedDict α β} {k : α} {v : β} (h : k ∉ d.keys) :
    (d.set k v).entries = d.entries ++ [(k, v)] := by
  unfold set
  split
  · rename_i hmem
    exact absurd hmem h
  · rfl

/-- Assigning keys that are not there appends them. -/
theorem entries_update {d : OrderedDict α β} {l : List (α × β)}
    (h : (d.keys ++ l.map Prod.fst).Nodup) : (d.update l).entries = d.entries ++ l := by
  induction l generalizing d with
  | nil => exact (List.append_nil _).symm
  | cons e rest ih =>
      have hnew : e.1 ∉ d.keys := by
        intro hmem
        exact (List.nodup_append.mp h).2.2 e.1 hmem e.1 (List.mem_cons_self ..) rfl
      have hset : (d.set e.1 e.2).entries = d.entries ++ [e] := entries_set_new hnew
      have hkeys : ((d.set e.1 e.2).keys ++ rest.map Prod.fst).Nodup := by
        unfold keys
        rw [hset, List.map_append, List.append_assoc]
        exact h
      show ((d.set e.1 e.2).update rest).entries = _
      rw [ih hkeys, hset, List.append_assoc]
      rfl

theorem Forall.update {P : α → β → Prop} {d : OrderedDict α β} (h : d.Forall P) {l : List (α × β)}
    (hl : ∀ e ∈ l, P e.1 e.2) : (d.update l).Forall P := by
  induction l generalizing d with
  | nil => exact h
  | cons e rest ih =>
      obtain ⟨he, hrest⟩ := List.forall_mem_cons.mp hl
      exact ih (h.set he) hrest

/-- The keys after several assignments. -/
theorem mem_keys_update {d : OrderedDict α β} {l : List (α × β)} {k : α} :
    k ∈ (d.update l).keys ↔ k ∈ d.keys ∨ k ∈ l.map Prod.fst := by
  induction l generalizing d with
  | nil => simp [OrderedDict.update]
  | cons e rest ih =>
      show k ∈ ((d.set e.1 e.2).update rest).keys ↔ _
      rw [ih, mem_keys_set, List.map_cons, List.mem_cons]
      tauto

/-- Where every key made an entry of its own, no key came twice. -/
theorem nodup_of_size_update {l : List (α × β)}
    (h : l.length ≤ (empty.update l : OrderedDict α β).size) : (l.map Prod.fst).Nodup := by
  have hsub : (empty.update l : OrderedDict α β).keys ⊆ l.map Prod.fst := by
    intro k hk
    rcases mem_keys_update.mp hk with hk | hk
    · exact absurd hk List.not_mem_nil
    · exact hk
  have hperm : (empty.update l : OrderedDict α β).keys.Perm (l.map Prod.fst) := by
    refine (List.subperm_of_subset (empty.update l).nodup hsub).perm_of_length_le ?_
    rw [List.length_map, List.length_map]
    exact h
  exact hperm.nodup_iff.mp (empty.update l).nodup

/-- A dictionary built from the entries of another is that one. -/
theorem update_empty (d : OrderedDict α β) : (empty : OrderedDict α β).update d.entries = d :=
  eq_of_entries (entries_update d.nodup)

/-- Assign to a key what there is to assign. -/
def offer (f : α → Option β) (d : OrderedDict α β) (k : α) : OrderedDict α β :=
  match f k with
  | none => d
  | some v => d.set k v

/-- What there is to assign, for each of a list of keys in turn. -/
def collect (f : α → Option β) (keys : List α) : OrderedDict α β := keys.foldl (offer f) .empty

/-- What an assignment that may not be made leaves to be found. -/
theorem get?_offer (f : α → Option β) (d : OrderedDict α β) (k k' : α) :
    (d.offer f k).get? k' = if k' = k then (f k).or (d.get? k') else d.get? k' := by
  unfold offer
  by_cases hk : k' = k
  · subst hk
    cases f k' with
    | none => simp
    | some v => simp [get?_set]
  · cases f k with
    | none => simp [hk]
    | some v => simp [get?_set, hk]

theorem get?_foldl_offer (f : α → Option β) (keys : List α) (d : OrderedDict α β) (k : α) :
    (keys.foldl (offer f) d).get? k = if k ∈ keys then (f k).or (d.get? k) else d.get? k := by
  induction keys generalizing d with
  | nil => rfl
  | cons first rest ih =>
      rw [List.foldl_cons, ih, get?_offer]
      by_cases hk : k = first
      · subst hk
        by_cases hrest : k ∈ rest
        · cases hf : f k <;> simp [hrest]
        · simp [hrest]
      · simp [hk]

/-- Only what there was to assign is found, and all of it. -/
theorem get?_collect (f : α → Option β) (keys : List α) (k : α) :
    (collect f keys).get? k = if k ∈ keys then f k else none := by
  unfold collect
  rw [get?_foldl_offer]
  simp

/-- No key finds anything just when there is no entry. -/
theorem entries_eq_nil {d : OrderedDict α β} : d.entries = [] ↔ ∀ k, d.get? k = none := by
  constructor
  · intro h k
    unfold get?
    rw [h]
    rfl
  · intro h
    rw [List.eq_nil_iff_forall_not_mem]
    intro e he
    have hget : d.get? e.1 = some e.2 := get?_eq_some.mpr he
    exact absurd (hget.symm.trans (h e.1)) (by simp)

/-- The same map, whatever the order of its entries: Python's `==`. -/
def Same (d d' : OrderedDict α β) : Prop := ∀ k, d.get? k = d'.get? k

/-- `==`, as a test: as many entries, and each of them in the other. -/
def same [DecidableEq β] (d d' : OrderedDict α β) : Bool :=
  d.size = d'.size && d.entries.all fun e => d'.get? e.1 = some e.2

theorem Same.perm {d d' : OrderedDict α β} (h : d.Same d') : d.keys.Perm d'.keys := by
  refine (List.perm_ext_iff_of_nodup d.nodup d'.nodup).mpr fun k => ?_
  show k ∈ d.keys ↔ k ∈ d'.keys
  rw [← get?_ne_none, ← get?_ne_none, h k]

theorem Same.size {d d' : OrderedDict α β} (h : d.Same d') : d.size = d'.size := by
  have hlen := h.perm.length_eq
  unfold keys at hlen
  rwa [List.length_map, List.length_map] at hlen

theorem same_iff [DecidableEq β] {d d' : OrderedDict α β} : d.same d' = true ↔ d.Same d' := by
  unfold same
  rw [Bool.and_eq_true, decide_eq_true_eq, List.all_eq_true]
  constructor
  · intro hc k
    obtain ⟨hsize, hall⟩ := hc
    have hfound : ∀ v, d.get? k = some v → d'.get? k = some v := by
      intro v hv
      simpa using hall (k, v) (mem_of_get? hv)
    rcases hv : d.get? k with _ | v
    · -- The keys of one are among those of the other, and there are as many.
      have hsub : d.keys ⊆ d'.keys := by
        intro k' hk'
        obtain ⟨v, hv⟩ := Option.ne_none_iff_exists'.mp (get?_ne_none.mpr hk')
        have hv' := hall (k', v) (mem_of_get? hv)
        exact get?_ne_none.mp (by rw [of_decide_eq_true hv']; simp)
      have hperm : d.keys.Perm d'.keys := by
        refine (List.subperm_of_subset d.nodup hsub).perm_of_length_le ?_
        unfold keys
        rw [List.length_map, List.length_map]
        exact Nat.le_of_eq hsize.symm
      refine (get?_eq_none.mpr fun hk => ?_).symm
      exact get?_eq_none.mp hv (hperm.mem_iff.mpr hk)
    · exact (hfound v hv).symm
  · intro h
    refine ⟨h.size, fun e he => ?_⟩
    rw [decide_eq_true_eq, ← h e.1]
    exact get?_eq_some.mpr he

end OrderedDict
