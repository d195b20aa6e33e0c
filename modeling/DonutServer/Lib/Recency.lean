/-
Caches that keep what was used last.

A log lists what was used, oldest first, and `dedup` keeps the last use of each item, so
`log.dedup` is everything ever used in the order of its last use.  A cache that keeps what
was used last holds an end of that list: `recent cap log` is the one that holds as many as
fit.  An `OrderedDict` that moves an entry to its end when it is found, appends one that is
new and evicts from its front does just that, and the lemmas say so of its keys.
-/
import Mathlib.Data.List.Dedup
import Mathlib.Data.List.DropRight
import DonutServer.Lib.OrderedDict

namespace Recency

variable {α : Type}

theorem rtake_suffix (l : List α) (cap : Nat) : l.rtake cap <:+ l := List.drop_suffix _ l

theorem length_rtake (l : List α) (cap : Nat) : (l.rtake cap).length = min cap l.length := by
  unfold List.rtake
  rw [List.length_drop]
  omega

/-- The end of a list that is short enough. -/
theorem rtake_append (front : List α) {back : List α} {cap : Nat} (h : back.length ≤ cap) :
    (front ++ back).rtake cap = front.rtake (cap - back.length) ++ back := by
  unfold List.rtake
  rw [List.length_append, List.drop_append_of_le_length (by omega)]
  congr 2
  omega

variable [DecidableEq α] {l log used : List α} {k : α} {cap : Nat}

/-- Make `k` the item used last. -/
def touch (l : List α) (k : α) : List α := l.filter (fun x => x ≠ k) ++ [k]

/-- Use each of a list in turn. -/
def touchAll (l used : List α) : List α := used.foldl touch l

/-- The last `cap` items of a log, each once, in the order of their last use. -/
def recent (cap : Nat) (log : List α) : List α := log.dedup.rtake cap

/-- The last use of `x` came before that of `y`. -/
def LastUsedBefore (log : List α) (x y : α) : Prop := [x, y].Sublist log.dedup

/-! ### Touching

An item that is touched is taken out of the list, if it is there, and put at its end.  So no item
is there twice, and what has been touched last stands last.
-/

/-- What is there after a touch was there, or was touched. -/
theorem mem_touch {x : α} : x ∈ touch l k ↔ x = k ∨ x ∈ l := by
  unfold touch
  by_cases hx : x = k
  · simp [hx]
  · simp [hx]

/-- Nothing is there twice. -/
theorem touch_nodup (h : l.Nodup) : (touch l k).Nodup := by
  unfold touch
  refine List.nodup_append.mpr ⟨h.filter _, List.nodup_singleton k, ?_⟩
  intro a ha b hb
  rw [List.mem_singleton.mp hb]
  exact of_decide_eq_true (List.mem_filter.mp ha).2

theorem length_touch (h : l.Nodup) :
    (touch l k).length = if k ∈ l then l.length else l.length + 1 := by
  unfold touch
  rw [List.length_append, List.length_singleton]
  split
  · rename_i hmem
    have herase : l.filter (fun x => x ≠ k) = l.erase k := by
      rw [h.erase_eq_filter]
      refine List.filter_congr fun x _ => ?_
      by_cases hx : x = k
      · simp [hx]
      · simp [hx]
    have hpos := List.length_pos_of_mem hmem
    rw [herase, List.length_erase_of_mem hmem]
    omega
  · rename_i hmem
    rw [List.filter_eq_self.mpr]
    intro x hx
    exact decide_eq_true fun hxk => hmem (hxk ▸ hx)

/-- The last uses of a log, once `k` has been used again. -/
theorem dedup_concat (log : List α) (k : α) : (log ++ [k]).dedup = touch log.dedup k := by
  induction log with
  | nil => simp [touch]
  | cons a rest ih =>
      rw [List.cons_append, List.dedup_cons, List.dedup_cons]
      by_cases hrest : a ∈ rest
      · rw [if_pos (List.mem_append_left _ hrest), if_pos hrest]
        exact ih
      · rw [if_neg hrest]
        by_cases hak : a = k
        · rw [if_pos (by simp [hak]), ih, hak]
          simp [touch]
        · rw [if_neg (by simp [hrest, hak]), ih]
          simp [touch, hak]

/-! ### Holding an end of the log

A cache holds an end of the log's last uses, and each operation turns an end into an end.  What is
no longer held is then what was used before everything that is.
-/

/-- Touching keeps an end an end. -/
theorem touch_suffix (h : l <:+ log.dedup) : touch l k <:+ (log ++ [k]).dedup := by
  rw [dedup_concat]
  obtain ⟨front, hfront⟩ := h.filter fun x => decide (x ≠ k)
  exact ⟨front, by rw [touch, touch, ← hfront, List.append_assoc]⟩

/-- And so does touching many. -/
theorem touchAll_suffix (h : l <:+ log.dedup) (used : List α) :
    touchAll l used <:+ (log ++ used).dedup := by
  induction used generalizing l log with
  | nil =>
      rw [List.append_nil]
      exact h
  | cons k rest ih =>
      have hrest := ih (touch_suffix (k := k) h)
      rw [List.append_assoc] at hrest
      exact hrest

/-- What is not in the end that is held was used before all that is. -/
theorem lastUsedBefore_of_suffix {x y : α} (h : l <:+ log.dedup) (hx : x ∈ log) (hgone : x ∉ l)
    (hy : y ∈ l) : LastUsedBefore log x y := by
  obtain ⟨front, hfront⟩ := h
  have hmem : x ∈ front ++ l := by
    rw [hfront]
    exact List.mem_dedup.mpr hx
  have hfirst : x ∈ front := (List.mem_append.mp hmem).resolve_right hgone
  unfold LastUsedBefore
  rw [← hfront]
  exact (List.singleton_sublist.mpr hfirst).append (List.singleton_sublist.mpr hy)

/-- **Touching and evicting follows the log.** -/
theorem recent_concat (cap : Nat) (log : List α) (k : α) :
    (touch (recent cap log) k).rtake cap = recent cap (log ++ [k]) := by
  have hnodup : log.dedup.Nodup := List.nodup_dedup log
  have hend : recent cap log <:+ log.dedup := rtake_suffix _ _
  have hleft : (touch (recent cap log) k).rtake cap <:+ (log ++ [k]).dedup :=
    (rtake_suffix _ _).trans (touch_suffix hend)
  have hright : recent cap (log ++ [k]) <:+ (log ++ [k]).dedup := rtake_suffix _ _
  have hheld : (recent cap log).length = min cap log.dedup.length := length_rtake _ _
  have hlen : ((touch (recent cap log) k).rtake cap).length = (recent cap (log ++ [k])).length := by
    have hr : (recent cap (log ++ [k])).length = min cap (log ++ [k]).dedup.length :=
      length_rtake _ _
    rw [hr, length_rtake, dedup_concat, length_touch (hnodup.sublist hend.sublist),
      length_touch hnodup]
    by_cases hk : k ∈ recent cap log
    · rw [if_pos hk, if_pos (hend.subset hk)]
      omega
    · rw [if_neg hk]
      by_cases hall : k ∈ log.dedup
      · rw [if_pos hall]
        -- something was evicted, so the cache is full
        have hfull : ¬ log.dedup.length ≤ cap := by
          intro hle
          have heq : recent cap log = log.dedup :=
            hend.eq_of_length (by rw [hheld]; omega)
          exact hk (heq ▸ hall)
        omega
      · rw [if_neg hall]
        omega
  exact (List.suffix_of_suffix_length_le hleft hright hlen.le).eq_of_length hlen

/-! ### Touching many at once

A list of items that are touched in turn comes to stand at the end, in that order; what stood there
before stands before them, without them.
-/

theorem mem_touchAll {x : α} : x ∈ touchAll l used ↔ x ∈ used ∨ x ∈ l := by
  induction used generalizing l with
  | nil => simp [touchAll]
  | cons k rest ih =>
      show x ∈ touchAll (touch l k) rest ↔ _
      rw [ih, mem_touch, List.mem_cons]
      tauto

theorem length_touchAll (h : l.Nodup) (hused : used.Nodup) :
    (touchAll l used).length = l.length + (used.filter fun x => x ∉ l).length := by
  induction used generalizing l with
  | nil => rfl
  | cons k rest ih =>
      obtain ⟨hk, hrest⟩ := List.nodup_cons.mp hused
      show (touchAll (touch l k) rest).length = _
      have hsame : (rest.filter fun x => x ∉ touch l k) = rest.filter fun x => x ∉ l := by
        refine List.filter_congr fun x hx => ?_
        have hne : x ≠ k := fun hxk => hk (hxk ▸ hx)
        simp [mem_touch, hne]
      rw [ih (touch_nodup h) hrest, hsame, length_touch h, List.filter_cons]
      by_cases hkl : k ∈ l
      · simp [hkl]
      · simp only [hkl, not_false_eq_true, decide_true, if_true, if_false, List.length_cons]
        omega

/-- What was used stands at the end, in the order of use. -/
theorem touchAll_eq (hused : used.Nodup) :
    touchAll l used = (l.filter fun x => x ∉ used) ++ used := by
  induction used generalizing l with
  | nil => simp [touchAll]
  | cons k rest ih =>
      obtain ⟨hk, hrest⟩ := List.nodup_cons.mp hused
      show touchAll (touch l k) rest = _
      rw [ih hrest, touch, List.filter_append, List.filter_filter]
      have hkept : [k].filter (fun x => x ∉ rest) = [k] := by simp [hk]
      have hfilter : (l.filter fun x => decide (x ∉ rest) && decide (x ≠ k)) =
          l.filter fun x => x ∉ k :: rest := by
        refine List.filter_congr fun x _ => ?_
        by_cases hxk : x = k
        · simp [hxk]
        · simp [hxk]
      rw [hkept, hfilter, List.append_assoc, List.singleton_append]

end Recency

/-! ### The keys of an ordered dictionary

The operations of the idiom, on the keys: finding moves a key to the end, a new one is appended,
evicting cuts from the front.
-/

namespace OrderedDict

open Recency

variable {α β : Type}

theorem size_eq_length (d : OrderedDict α β) : d.size = d.keys.length :=
  (List.length_map ..).symm

theorem keys_evict (cap : Nat) (d : OrderedDict α β) : (d.evict cap).keys = d.keys.rtake cap := by
  show (dropOldest cap d.entries).map Prod.fst = (d.entries.map Prod.fst).rtake cap
  rw [dropOldest_eq, List.map_drop, List.rtake, List.length_map]

variable [DecidableEq α] {d : OrderedDict α β} {k : α}

theorem keys_moveToEnd (h : k ∈ d.keys) : (d.moveToEnd k).keys = touch d.keys k := by
  have hfound : (d.entries.filter fun e => e.1 = k).map Prod.fst = [k] := by
    have hkeys : (d.entries.filter fun e => e.1 = k).map Prod.fst =
        d.keys.filter fun x => x = k := by
      unfold keys
      rw [List.filter_map]
      rfl
    rw [hkeys, List.filter_eq, show List.count k d.keys = 1 from List.count_eq_one_of_mem d.nodup h]
    rfl
  unfold moveToEnd keys touch
  rw [List.map_append, hfound, List.filter_map]
  rfl

theorem keys_set_new {v : β} (h : k ∉ d.keys) : (d.set k v).keys = touch d.keys k := by
  have happend : (d.set k v).keys = d.keys ++ [k] := by
    unfold keys
    rw [entries_set_new h, List.map_append]
    rfl
  rw [happend, touch, List.filter_eq_self.mpr]
  intro x hx
  exact decide_eq_true fun hxk => h (hxk ▸ hx)

/-- Where no more than `cap` entries are held, finding one evicts none. -/
theorem keys_moveToEnd_rtake {cap : Nat} (h : k ∈ d.keys) (hsize : d.size ≤ cap) :
    (d.moveToEnd k).keys = (touch d.keys k).rtake cap := by
  have hlength : (touch d.keys k).length ≤ cap := by
    have hnodup : d.keys.Nodup := d.nodup
    rw [length_touch hnodup, if_pos h, ← size_eq_length]
    exact hsize
  have hall := rtake_append [] hlength
  rw [List.nil_append, List.rtake_nil, List.nil_append] at hall
  rw [keys_moveToEnd h, hall]

theorem keys_set_evict {cap : Nat} {v : β} (h : k ∉ d.keys) :
    ((d.set k v).evict cap).keys = (touch d.keys k).rtake cap := by
  rw [keys_evict, keys_set_new h]

/-! ### The newest entry

The last entry is the one touched last, and no eviction reaches it as long as there is room for
one.
-/

/-- The entry used last. -/
def newest (d : OrderedDict α β) : Option (α × β) := d.entries.getLast?

theorem newest_moveToEnd {v : β} (h : d.get? k = some v) :
    (d.moveToEnd k).newest = some (k, v) := by
  have hmem := mem_of_get? h
  have hall : ∀ e ∈ d.entries.filter (fun e => e.1 = k), e = (k, v) := by
    intro e he
    obtain ⟨he, hek⟩ := List.mem_filter.mp he
    have hkey : e.1 = k := of_decide_eq_true hek
    exact List.inj_on_of_nodup_map d.nodup he hmem hkey
  have hsome : (k, v) ∈ d.entries.filter (fun e => e.1 = k) :=
    List.mem_filter.mpr ⟨hmem, decide_eq_true rfl⟩
  have hne := List.ne_nil_of_mem hsome
  unfold newest moveToEnd
  rw [List.getLast?_append_of_ne_nil _ hne, List.getLast?_eq_some_getLast hne]
  exact congrArg some (hall _ (List.getLast_mem hne))

/-- The last entries of a dictionary one entry longer. -/
theorem entries_set_evict {cap : Nat} {v : β} (h : k ∉ d.keys) :
    ((d.set k v).evict (cap + 1)).entries = d.entries.rtake cap ++ [(k, v)] := by
  show dropOldest (cap + 1) (d.set k v).entries = _
  rw [dropOldest_eq, entries_set_new h]
  exact List.rtake_concat_succ d.entries cap (k, v)

theorem newest_set_evict {cap : Nat} {v : β} (h : k ∉ d.keys) :
    ((d.set k v).evict (cap + 1)).newest = some (k, v) := by
  unfold newest
  rw [entries_set_evict h, List.getLast?_concat]

/-- With room for two, what was newest is not evicted by what comes next. -/
theorem mem_set_evict_of_newest {cap : Nat} {v : β} {e : α × β} (hnewest : d.newest = some e)
    (h : k ∉ d.keys) : e ∈ ((d.set k v).evict (cap + 2)).entries := by
  rw [entries_set_evict h]
  refine List.mem_append_left _ ?_
  obtain ⟨front, hfront⟩ := List.getLast?_eq_some_iff.mp hnewest
  rw [hfront, List.rtake_concat_succ]
  exact List.mem_append_right _ (List.mem_singleton.mpr rfl)

end OrderedDict
