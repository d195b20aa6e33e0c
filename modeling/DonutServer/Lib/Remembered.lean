/-
What a dictionary of bounded size remembers.

A new entry goes to the end, and where there are too many the oldest go.  So an entry stays
until enough others have been written after it, and `Behind` says which: the entry is there,
and none but these keys stand behind it.  Each operation adds at most the key it writes.
-/
import Mathlib.Data.Finset.Card
import DonutServer.Lib.OrderedDict

namespace OrderedDict

variable {α β : Type} [DecidableEq α] {d : OrderedDict α β} {k k' : α} {v v' : β}
  {others : Finset α} {cap : Nat}

/-- Written anew at the end, and the oldest go where there are more than `cap`. -/
def remember (cap : Nat) (k : α) (v : β) (d : OrderedDict α β) : OrderedDict α β :=
  ((d.pop k).set k v).evict cap

/-- The entry is there, and these keys at most are newer. -/
def Behind (k : α) (v : β) (others : Finset α) (d : OrderedDict α β) : Prop :=
  ∃ older newer, d.entries = older ++ (k, v) :: newer ∧ ∀ e ∈ newer, e.1 ∈ others

theorem Behind.get? (h : d.Behind k v others) : d.get? k = some v := by
  obtain ⟨older, newer, hentries, -⟩ := h
  rw [get?_eq_some, hentries]
  simp

/-! ### Forgetting a key

To forget a key makes room and moves nothing.
-/

theorem mem_pop {e : α × β} : e ∈ (d.pop k).entries ↔ e ∈ d.entries ∧ e.1 ≠ k := by
  unfold pop
  rw [List.mem_filter, decide_eq_true_eq]

theorem size_pop_le : (d.pop k).size ≤ d.size := List.length_filter_le _ _

theorem not_mem_keys_pop : k ∉ (d.pop k).keys := by
  intro hmem
  obtain ⟨e, he, heq⟩ := List.mem_map.mp hmem
  exact (mem_pop.mp he).2 heq

/-- Forgetting another key leaves the entry where it is. -/
theorem Behind.pop (h : d.Behind k v others) (hne : k ≠ k') : (d.pop k').Behind k v others := by
  obtain ⟨older, newer, hentries, hnewer⟩ := h
  refine ⟨older.filter (fun e => e.1 ≠ k'), newer.filter (fun e => e.1 ≠ k'), ?_, ?_⟩
  · show d.entries.filter (fun e => e.1 ≠ k') = _
    rw [hentries, List.filter_append, List.filter_cons_of_pos (by simpa using hne)]
  · intro e he
    exact hnewer e (List.mem_of_mem_filter he)

/-! ### Remembering one

A key that is written again is taken out first, so that it comes to stand at the end; then the
oldest go.  An entry is reached by that only when there are as many behind it as fit.
-/

theorem entries_remember : (d.remember cap k v).entries =
    ((d.pop k).entries ++ [(k, v)]).drop ((d.pop k).size + 1 - cap) := by
  show dropOldest cap ((d.pop k).set k v).entries = _
  rw [dropOldest_eq, entries_set_new not_mem_keys_pop, List.length_append, List.length_singleton]
  rfl

theorem mem_remember {e : α × β} (h : e ∈ (d.remember cap k v).entries) :
    e = (k, v) ∨ e ∈ d.entries ∧ e.1 ≠ k := by
  rw [entries_remember] at h
  rcases List.mem_append.mp (List.mem_of_mem_drop h) with hold | hnew
  · exact Or.inr (mem_pop.mp hold)
  · exact Or.inl (List.mem_singleton.mp hnew)

/-- What was written last has nothing behind it. -/
theorem behind_remember (hcap : 0 < cap) : (d.remember cap k v).Behind k v ∅ := by
  refine ⟨(d.pop k).entries.drop ((d.pop k).size + 1 - cap), [], ?_, fun e he => ?_⟩
  · rw [entries_remember, List.drop_append_of_le_length]
    show (d.pop k).size + 1 - cap ≤ (d.pop k).size
    omega
  · exact absurd he List.not_mem_nil

/-- An entry outlasts a newer one while there is room for all that may stand behind it. -/
theorem Behind.remember (h : d.Behind k v others) (hne : k ≠ k')
    (hroom : (insert k' others).card < cap) :
    (d.remember cap k' v').Behind k v (insert k' others) := by
  obtain ⟨older, newer, hentries, hnewer⟩ := h.pop hne
  -- The keys behind the entry are all different, so they are no more than there is room for.
  have hkeys : (newer.map Prod.fst ++ [k']).Nodup := by
    have hall : ((d.pop k').entries.map Prod.fst).Nodup := (d.pop k').nodup
    rw [hentries, List.map_append, List.map_cons] at hall
    refine List.nodup_append.mpr ⟨(List.nodup_cons.mp (List.nodup_append.mp hall).2.1).2,
      List.nodup_singleton k', ?_⟩
    intro a ha b hb hab
    obtain ⟨e, he, rfl⟩ := List.mem_map.mp ha
    have hmem : e ∈ (d.pop k').entries := by
      rw [hentries]
      exact List.mem_append_right _ (List.mem_cons_of_mem _ he)
    exact (mem_pop.mp hmem).2 (hab.trans (List.mem_singleton.mp hb))
  have hlength : newer.length + 1 ≤ (insert k' others).card := by
    have hsub : (newer.map Prod.fst ++ [k']).toFinset ⊆ insert k' others := by
      intro a ha
      rcases List.mem_append.mp (List.mem_toFinset.mp ha) with hold | hlast
      · obtain ⟨e, he, rfl⟩ := List.mem_map.mp hold
        exact Finset.mem_insert_of_mem (hnewer e he)
      · rw [List.mem_singleton.mp hlast]
        exact Finset.mem_insert_self k' others
    have hcard := Finset.card_le_card hsub
    rw [List.toFinset_card_of_nodup hkeys, List.length_append, List.length_map] at hcard
    exact hcard
  have hsize : (d.pop k').size = older.length + (newer.length + 1) := by
    unfold size
    rw [hentries, List.length_append, List.length_cons]
  refine ⟨older.drop ((d.pop k').size + 1 - cap), newer ++ [(k', v')], ?_, fun e he => ?_⟩
  · rw [entries_remember, hentries, List.append_assoc, List.cons_append,
      List.drop_append_of_le_length (by omega)]
  · rcases List.mem_append.mp he with hold | hlast
    · exact Finset.mem_insert_of_mem (hnewer e hold)
    · rw [List.mem_singleton.mp hlast]
      exact Finset.mem_insert_self k' others

end OrderedDict
