/-
Searching a text of lines.

A search comes back with a position, and a text is cut into lines by going back from there
to the line end before it.  A piece without a line end in it that is found lies within one
line, so a search for one is a search for the first line, or the last, that holds it.
-/
import Mathlib.Data.List.Infix
import Mathlib.Tactic.Common

namespace Lines

variable {α : Type}

/-! ### Lines

A line is a text whose only line end, if it has one, is its last place.  In a list of lines all
have one but perhaps the last, for a text need not end with a line end.
-/

/-- Lines, of which the last one may lack its end. -/
inductive IsLines (nl : α) : List (List α) → Prop
  | nil : IsLines nl []
  | last (l : List α) : l ≠ [] → nl ∉ l → IsLines nl [l]
  | cons (body : List α) (rest : List (List α)) : nl ∉ body → IsLines nl rest →
      IsLines nl ((body ++ [nl]) :: rest)

variable {nl : α} {piece data body l : List α} {ls pre post : List (List α)} {i : Nat}

namespace IsLines

/-- Without the first of them they are still lines. -/
theorem tail (h : IsLines nl (l :: post)) : IsLines nl post := by
  rcases h with _ | ⟨_, -, -⟩ | ⟨body, _, -, hpost⟩
  · exact .nil
  · exact hpost

/-- A line that others follow has an end. -/
theorem ended (h : IsLines nl (l :: post)) (hpost : post ≠ []) : ∃ body, l = body ++ [nl] := by
  rcases h with _ | ⟨_, -, -⟩ | ⟨body, _, -, -⟩
  · exact absurd rfl hpost
  · exact ⟨body, rfl⟩

/-- The last of them are lines. -/
theorem right (h : IsLines nl (pre ++ post)) : IsLines nl post := by
  induction pre with
  | nil => exact h
  | cons first pre ih => exact ih h.tail

/-- What stands before a line ends with a line end, if there is anything. -/
theorem left (h : IsLines nl (pre ++ l :: post)) : pre = [] ∨ ∃ x, pre.flatten = x ++ [nl] := by
  induction pre with
  | nil => exact Or.inl rfl
  | cons first pre ih =>
      refine Or.inr ?_
      obtain ⟨body, rfl⟩ := h.ended (by simp)
      rcases ih h.tail with rfl | ⟨x, hx⟩
      · exact ⟨body, by simp⟩
      · exact ⟨body ++ [nl] ++ x, by rw [List.flatten_cons, hx, ← List.append_assoc]⟩

/-- What is left of a line before its end is a line. -/
theorem drop (h : IsLines nl (l :: post)) (hi : nl ∉ l.take i) :
    l.drop i = [] ∧ post = [] ∨ IsLines nl (l.drop i :: post) := by
  rcases h with _ | ⟨_, -, hmem⟩ | ⟨body, _, hmem, hpost⟩
  · by_cases hdrop : l.drop i = []
    · exact Or.inl ⟨hdrop, rfl⟩
    · exact Or.inr (.last _ hdrop fun hc => hmem (List.mem_of_mem_drop hc))
  · have hle : i ≤ body.length := by
      by_contra hlt
      refine hi ?_
      rw [List.take_of_length_le (by rw [List.length_append, List.length_singleton]; omega)]
      exact List.mem_append_right _ (List.mem_singleton.mpr rfl)
    rw [List.drop_append_of_le_length hle]
    exact Or.inr (.cons _ _ (fun hc => hmem (List.mem_of_mem_drop hc)) hpost)

/-- A line is not empty. -/
theorem ne_nil (h : IsLines nl (l :: post)) : l ≠ [] := by
  rcases h with _ | ⟨_, hne, -⟩ | ⟨body, _, -, -⟩
  · exact hne
  · simp

/-- There is no line end before the last place of a line. -/
theorem not_mem_take (h : IsLines nl (l :: post)) (hi : i < l.length) : nl ∉ l.take i := by
  rcases h with _ | ⟨_, -, hmem⟩ | ⟨body, _, hmem, -⟩
  · exact fun hc => hmem (List.mem_of_mem_take hc)
  · rw [List.length_append, List.length_singleton] at hi
    rw [List.take_append_of_le_length (Nat.lt_succ_iff.mp hi)]
    exact fun hc => hmem (List.mem_of_mem_take hc)

end IsLines

/-! ### The first line of a kind

A search forwards stops at the first line of its kind and one backwards at the last, so what is
proved of either starts by cutting the lines there.
-/

/-- Where there is a line of a kind there is a first one. -/
theorem exists_first {p : List α → Prop} (h : ∃ l ∈ ls, p l) :
    ∃ before l after, ls = before ++ l :: after ∧ (∀ m ∈ before, ¬ p m) ∧ p l := by
  induction ls with
  | nil =>
      obtain ⟨l, hl, -⟩ := h
      exact absurd hl List.not_mem_nil
  | cons first ls ih =>
      by_cases hfirst : p first
      · exact ⟨[], first, ls, rfl, fun m hm => absurd hm List.not_mem_nil, hfirst⟩
      · have hrest : ∃ l ∈ ls, p l := by
          obtain ⟨l, hl, hp⟩ := h
          rcases List.mem_cons.mp hl with rfl | hl
          · exact absurd hp hfirst
          · exact ⟨l, hl, hp⟩
        obtain ⟨before, l, after, rfl, hbefore, hp⟩ := ih hrest
        exact ⟨first :: before, l, after, rfl, List.forall_mem_cons.mpr ⟨hfirst, hbefore⟩, hp⟩

/-- The last line of a kind stands in one place. -/
theorem split_unique {p : List α → Prop} {pre' post' : List (List α)} {l' : List α}
    (h : pre ++ l :: post = pre' ++ l' :: post') (hl : p l) (hl' : p l')
    (hpost : ∀ m ∈ post, ¬ p m) (hpost' : ∀ m ∈ post', ¬ p m) :
    pre = pre' ∧ l = l' ∧ post = post' := by
  rcases List.append_eq_append_iff.mp h with ⟨more, rfl, hmore⟩ | ⟨more, rfl, hmore⟩
  · rcases more with _ | ⟨x, more⟩
    · obtain ⟨rfl, rfl⟩ := List.cons.inj hmore
      exact ⟨(List.append_nil _).symm, rfl, rfl⟩
    · obtain ⟨-, rfl⟩ := List.cons.inj hmore
      exact absurd hl' (hpost _ (List.mem_append_right _ List.mem_cons_self))
  · rcases more with _ | ⟨x, more⟩
    · obtain ⟨rfl, rfl⟩ := List.cons.inj hmore
      exact ⟨List.append_nil _, rfl, rfl⟩
    · obtain ⟨-, rfl⟩ := List.cons.inj hmore
      exact absurd hl (hpost' _ (List.mem_append_right _ List.mem_cons_self))

/-- The lines before the first one of a kind. -/
theorem takeWhile_before {p : List α → Prop} [DecidablePred p] {before after : List (List α)}
    (hbefore : ∀ m ∈ before, p m) (hl : ¬ p l) :
    (before ++ l :: after).takeWhile (fun m => p m) = before := by
  rw [List.takeWhile_append_of_pos fun m hm => decide_eq_true (hbefore m hm),
    List.takeWhile_cons_of_neg (by simpa using hl), List.append_nil]

theorem takeWhile_congr {p q : List α → Prop} [DecidablePred p] [DecidablePred q]
    (h : ∀ m ∈ ls, (p m ↔ q m)) :
    ls.takeWhile (fun m => p m) = ls.takeWhile (fun m => q m) := by
  induction ls with
  | nil => rfl
  | cons first ls ih =>
      obtain ⟨hfirst, hls⟩ := List.forall_mem_cons.mp h
      rw [List.takeWhile_cons, List.takeWhile_cons, ih hls, decide_eq_decide.mpr hfirst]

/-! ### Pieces without a line end

This is what makes a search for a piece one for a line: such a piece cannot begin in one line and
end in the next.
-/

/-- A piece without a line end that stands before one ends before it. -/
theorem prefix_append (body : List α) (hpiece : nl ∉ piece) {rest : List α}
    (h : piece <+: body ++ nl :: rest) : piece <+: body := by
  induction body generalizing piece with
  | nil =>
      rcases piece with _ | ⟨b, piece⟩
      · exact List.nil_prefix
      · obtain ⟨rfl, -⟩ := List.cons_prefix_cons.mp h
        exact absurd (List.mem_cons_self ..) hpiece
  | cons a body ih =>
      rcases piece with _ | ⟨b, piece⟩
      · exact List.nil_prefix
      · obtain ⟨rfl, hrest⟩ := List.cons_prefix_cons.mp h
        exact List.cons_prefix_cons.mpr ⟨rfl, ih (List.not_mem_of_not_mem_cons hpiece) hrest⟩

/-- The end of a line is no part of a piece without one. -/
theorem infix_line (hpiece : nl ∉ piece) : piece <:+: body ++ [nl] ↔ piece <:+: body := by
  refine ⟨fun h => ?_, fun h => h.trans (List.prefix_append _ _).isInfix⟩
  induction body with
  | nil =>
      rcases List.infix_cons_iff.mp h with h | h
      · exact (prefix_append [] hpiece h).isInfix
      · exact h
  | cons a body ih =>
      rcases List.infix_cons_iff.mp h with h | h
      · exact (prefix_append (a :: body) hpiece h).isInfix
      · exact List.infix_cons_iff.mpr (Or.inr (ih h))

variable [DecidableEq α]

/-! ### Searching

The searches are those of `bytes`, as functions to a position or to nothing, each by recursion on
the text.
-/

/-- Where `piece` is found first. -/
def find (piece : List α) : List α → Option Nat
  | [] => if piece = [] then some 0 else none
  | a :: rest => if piece <+: a :: rest then some 0 else (find piece rest).map (· + 1)

/-- `data.find(piece, start)`. -/
def findFrom (piece data : List α) (start : Nat) : Option Nat :=
  (find piece (data.drop start)).map (· + start)

/-- `data.rfind(piece)`. -/
def rfind (piece : List α) : List α → Option Nat
  | [] => if piece = [] then some 0 else none
  | a :: rest =>
      match rfind piece rest with
      | some i => some (i + 1)
      | none => if piece <+: a :: rest then some 0 else none

/-- `data.rfind(nl, 0, i) + 1`: where the line of a position starts. -/
def lineStart (nl : α) (data : List α) (i : Nat) : Nat :=
  match rfind [nl] (data.take i) with
  | some j => j + 1
  | none => 0

/-- Where the line starts in which `piece` is found, from `start` on. -/
def lineFrom (nl : α) (piece data : List α) (start : Nat) : Option Nat :=
  (findFrom piece data start).map (lineStart nl data)

/-- The lines of a text, each with its end. -/
def lines (nl : α) : List α → List (List α)
  | [] => []
  | a :: rest =>
      if a = nl then [a] :: lines nl rest
      else
        match lines nl rest with
        | [] => [[a]]
        | l :: ls => (a :: l) :: ls

/-- The lines of a text, one after the other, are the text. -/
theorem flatten_lines (nl : α) (data : List α) : (lines nl data).flatten = data := by
  induction data with
  | nil => rfl
  | cons a rest ih =>
      unfold lines
      split
      · rw [List.flatten_cons, ih]
        rfl
      · split
        · rename_i hnil
          rw [hnil] at ih
          rw [← ih]
          rfl
        · rename_i l ls hcons
          rw [hcons] at ih
          rw [← ih]
          rfl

/-- The lines of a text are lines. -/
theorem isLines_lines (nl : α) (data : List α) : IsLines nl (lines nl data) := by
  induction data with
  | nil => exact .nil
  | cons a rest ih =>
      unfold lines
      split
      · rename_i ha
        rw [ha]
        exact .cons [] _ List.not_mem_nil ih
      · rename_i ha
        have hne : ∀ {l : List α}, nl ∉ l → nl ∉ a :: l :=
          fun hl => List.not_mem_cons_of_ne_of_not_mem (Ne.symm ha) hl
        split
        · exact .last [a] (List.cons_ne_nil _ _) (hne List.not_mem_nil)
        · rename_i l ls hcons
          rw [hcons] at ih
          rcases ih with _ | ⟨_, -, hl⟩ | ⟨body, _, hbody, hrest⟩
          · exact .last _ (List.cons_ne_nil _ _) (hne hl)
          · exact .cons (a :: body) _ (hne hbody) hrest

/-! ### Searching forwards

Two facts make a search over lines: in a line that holds the piece it is found there, and a line
that does not hold it is passed over whole.
-/

/-- What is found is there. -/
theorem prefix_of_find (h : find piece data = some i) : piece <+: data.drop i := by
  induction data generalizing i with
  | nil =>
      unfold find at h
      split at h
      · rename_i hnil
        rw [hnil]
        exact List.nil_prefix
      · exact absurd h (by simp)
  | cons a rest ih =>
      unfold find at h
      split at h
      · rename_i hprefix
        rw [← Option.some.inj h]
        exact hprefix
      · obtain ⟨k, hk, rfl⟩ := Option.map_eq_some_iff.mp h
        exact ih hk

/-- What is not there is not found. -/
theorem find_eq_none (h : ¬ piece <:+: data) : find piece data = none := by
  rcases hfind : find piece data with _ | i
  · rfl
  · exact absurd ((prefix_of_find hfind).isInfix.trans (List.drop_suffix i data).isInfix) h

/-- It is found no later than it stands anywhere. -/
theorem find_le (h : piece <+: data.drop i) (hi : i ≤ data.length) :
    ∃ k, k ≤ i ∧ find piece data = some k := by
  induction data generalizing i with
  | nil =>
      rw [List.drop_nil, List.prefix_nil] at h
      exact ⟨0, Nat.zero_le _, by rw [h]; rfl⟩
  | cons a rest ih =>
      unfold find
      split
      · exact ⟨0, Nat.zero_le _, rfl⟩
      · rename_i hprefix
        rcases i with _ | i
        · exact absurd h hprefix
        · obtain ⟨k, hk, hfind⟩ := ih h (Nat.le_of_succ_le_succ hi)
          exact ⟨k + 1, Nat.succ_le_succ hk, by rw [hfind]; rfl⟩

/-- The first of one letter is behind all the others. -/
theorem find_single (rest : List α) (h : nl ∉ body) :
    find [nl] (body ++ nl :: rest) = some body.length := by
  induction body with
  | nil => exact if_pos (List.prefix_append [nl] rest)
  | cons a body ih =>
      have hne : ¬ [nl] <+: a :: (body ++ nl :: rest) := by
        intro hc
        exact h (List.mem_cons.mpr (Or.inl (List.cons_prefix_cons.mp hc).1))
      have hrest := ih fun hmem => h (List.mem_cons_of_mem a hmem)
      exact (if_neg hne).trans (congrArg (Option.map (· + 1)) hrest)

/-- In a line that holds it, a piece is found within the line. -/
theorem find_held (rest : List α) (hne : piece ≠ []) (h : piece <:+: l) :
    ∃ k, k < l.length ∧ find piece (l ++ rest) = some k := by
  obtain ⟨s, t, rfl⟩ := h
  have hprefix : piece <+: (s ++ piece ++ t ++ rest).drop s.length := by
    rw [List.append_assoc, List.append_assoc, List.drop_left]
    exact List.prefix_append _ _
  have hlength := List.length_pos_of_ne_nil hne
  obtain ⟨k, hk, hfind⟩ := find_le hprefix (by simp only [List.length_append]; omega)
  exact ⟨k, by simp only [List.length_append]; omega, hfind⟩

/-- A line that does not hold it is passed over. -/
theorem find_passed (rest : List α) (hpiece : nl ∉ piece) (hne : piece ≠ [])
    (h : ¬ piece <:+: body) :
    find piece (body ++ [nl] ++ rest) = (find piece rest).map (· + (body ++ [nl]).length) := by
  have hskip : ∀ {a : α} {tail : List α}, ¬ piece <+: a :: tail →
      find piece (a :: tail) = (find piece tail).map (· + 1) := fun hn => if_neg hn
  induction body with
  | nil => exact hskip fun hc => hne (List.prefix_nil.mp (prefix_append [] hpiece hc))
  | cons a body ih =>
      have ha : ¬ piece <+: a :: (body ++ [nl] ++ rest) := by
        intro hc
        rw [List.append_assoc] at hc
        exact h (prefix_append (a :: body) hpiece hc).isInfix
      refine (hskip ha).trans ?_
      rw [ih fun hc => h (List.infix_cons_iff.mpr (Or.inr hc)), Option.map_map]
      rfl

/-- A search for a piece is a search for the first line that holds it. -/
theorem find_lines (h : IsLines nl ls) (hpiece : nl ∉ piece) (hne : piece ≠ []) :
    (find piece ls.flatten = none ∧ ∀ l ∈ ls, ¬ piece <:+: l) ∨
      ∃ pre l post k, ls = pre ++ l :: post ∧ (∀ m ∈ pre, ¬ piece <:+: m) ∧ piece <:+: l ∧
        k < l.length ∧ find piece ls.flatten = some (pre.flatten.length + k) := by
  induction h with
  | nil => exact Or.inl ⟨if_neg hne, fun l hl => absurd hl List.not_mem_nil⟩
  | last l _ hmem =>
      rw [List.flatten_cons, List.flatten_nil]
      by_cases hl : piece <:+: l
      · obtain ⟨k, hk, hfind⟩ := find_held [] hne hl
        exact Or.inr ⟨[], l, [], k, rfl, fun m hm => absurd hm List.not_mem_nil, hl, hk,
          by rw [hfind, List.flatten_nil, List.length_nil, Nat.zero_add]⟩
      · rw [List.append_nil]
        refine Or.inl ⟨find_eq_none hl, fun m hm => ?_⟩
        rwa [List.mem_singleton.mp hm]
  | cons body rest hbody _ ih =>
      by_cases hl : piece <:+: body ++ [nl]
      · obtain ⟨k, hk, hfind⟩ := find_held rest.flatten hne hl
        exact Or.inr ⟨[], body ++ [nl], rest, k, rfl, fun m hm => absurd hm List.not_mem_nil, hl, hk,
          by rw [List.flatten_cons, hfind, List.flatten_nil, List.length_nil, Nat.zero_add]⟩
      · have hskip := find_passed rest.flatten hpiece hne (mt (infix_line hpiece).mpr hl)
        rw [List.flatten_cons, hskip]
        rcases ih with ⟨hnone, hall⟩ | ⟨pre, l, post, k, rfl, hpre, hheld, hk, hfind⟩
        · exact Or.inl ⟨by rw [hnone]; rfl, List.forall_mem_cons.mpr ⟨hl, hall⟩⟩
        · refine Or.inr ⟨(body ++ [nl]) :: pre, l, post, k, rfl, List.forall_mem_cons.mpr ⟨hl, hpre⟩,
            hheld, hk, ?_⟩
          rw [hfind, Option.map_some, List.flatten_cons, List.length_append]
          exact congrArg some (by simp only [List.length_append]; omega)

/-! ### Searching backwards

The same from the other end.  A piece may stand in a line more than once, and the last of these is
the one found.
-/

/-- What is found is there. -/
theorem prefix_of_rfind (h : rfind piece data = some i) : piece <+: data.drop i := by
  induction data generalizing i with
  | nil =>
      unfold rfind at h
      split at h
      · rename_i hnil
        rw [hnil]
        exact List.nil_prefix
      · exact absurd h (by simp)
  | cons a rest ih =>
      unfold rfind at h
      split at h
      · rename_i k hk
        rw [← Option.some.inj h]
        exact ih hk
      · split at h
        · rename_i hprefix
          rw [← Option.some.inj h]
          exact hprefix
        · exact absurd h (by simp)

theorem rfind_append {rest : List α} (h : rfind piece rest = some i) :
    rfind piece (data ++ rest) = some (data.length + i) := by
  induction data with
  | nil => rw [List.nil_append, h, List.length_nil, Nat.zero_add]
  | cons a data ih =>
      rw [List.cons_append, rfind, ih, List.length_cons]
      exact congrArg some (by omega)

/-- And what is not found is not. -/
theorem not_infix_of_rfind (h : rfind piece data = none) : ¬ piece <:+: data := by
  intro hinfix
  obtain ⟨s, t, rfl⟩ := hinfix
  have hsome : ∃ k, rfind piece (piece ++ t) = some k := by
    rcases hpiece : piece ++ t with _ | ⟨a, rest⟩
    · rw [(List.append_eq_nil_iff.mp hpiece).1]
      exact ⟨0, rfl⟩
    · have hprefix : piece <+: a :: rest := hpiece ▸ List.prefix_append _ _
      unfold rfind
      split
      · exact ⟨_, rfl⟩
      · exact ⟨0, if_pos hprefix⟩
  obtain ⟨k, hk⟩ := hsome
  rw [List.append_assoc, rfind_append hk] at h
  exact absurd h (by simp)

/-- Where nothing behind a line holds it, a piece is where it is in the line. -/
theorem rfind_passed {rest : List α} (hpiece : nl ∉ piece) (hne : piece ≠ [])
    (h : rfind piece rest = none) :
    rfind piece (body ++ [nl] ++ rest) = rfind piece (body ++ [nl]) := by
  induction body with
  | nil =>
      have hno : ∀ {tail : List α}, ¬ piece <+: nl :: tail :=
        fun hc => hne (List.prefix_nil.mp (prefix_append [] hpiece hc))
      show rfind piece (nl :: rest) = rfind piece [nl]
      rw [rfind, h, rfind, rfind, if_neg hne, if_neg hno, if_neg hno]
  | cons a body ih =>
      have hiff : piece <+: a :: (body ++ [nl] ++ rest) ↔ piece <+: a :: (body ++ [nl]) := by
        constructor
        · intro hc
          rw [List.append_assoc] at hc
          exact (prefix_append (a :: body) hpiece hc).trans (List.prefix_append _ _)
        · exact fun hc => hc.trans (List.prefix_append (a :: (body ++ [nl])) rest)
      show rfind piece (a :: (body ++ [nl] ++ rest)) = rfind piece (a :: (body ++ [nl]))
      rw [rfind, ih, rfind]
      simp only [hiff]

/-- A search from the end is a search for the last line that holds the piece. -/
theorem rfind_lines (h : IsLines nl ls) (hpiece : nl ∉ piece) (hne : piece ≠ [])
    (hfound : rfind piece ls.flatten = some i) :
    ∃ pre l post k, ls = pre ++ l :: post ∧ (∀ m ∈ post, ¬ piece <:+: m) ∧
      rfind piece l = some k ∧ i = pre.flatten.length + k := by
  induction h generalizing i with
  | nil =>
      rw [List.flatten_nil, rfind, if_neg hne] at hfound
      exact absurd hfound (by simp)
  | last l _ _ =>
      rw [List.flatten_cons, List.flatten_nil, List.append_nil] at hfound
      exact ⟨[], l, [], i, rfl, fun m hm => absurd hm List.not_mem_nil, hfound,
        by rw [List.flatten_nil, List.length_nil, Nat.zero_add]⟩
  | cons body rest _ _ ih =>
      rw [List.flatten_cons] at hfound
      rcases hrest : rfind piece rest.flatten with _ | k
      · rw [rfind_passed hpiece hne hrest] at hfound
        refine ⟨[], body ++ [nl], rest, i, rfl, fun m hm hheld => ?_, hfound,
          by rw [List.flatten_nil, List.length_nil, Nat.zero_add]⟩
        obtain ⟨s, t, rfl⟩ := List.append_of_mem hm
        refine not_infix_of_rfind hrest (hheld.trans ?_)
        rw [List.flatten_append, List.flatten_cons]
        exact ⟨s.flatten, t.flatten, List.append_assoc ..⟩
      · rw [rfind_append hrest] at hfound
        obtain ⟨pre, l, post, k', rfl, hpost, hl, rfl⟩ := ih hrest
        refine ⟨(body ++ [nl]) :: pre, l, post, k', rfl, hpost, hl, ?_⟩
        rw [← Option.some.inj hfound, List.flatten_cons, List.length_append]
        simp only [List.length_append]
        omega

/-! ### The start of a line

The line that a position lies in starts behind the last line end before it, or at the start of the
text.
-/

/-- A letter that is not there is not found. -/
theorem rfind_single_eq_none (h : nl ∉ data) : rfind [nl] data = none := by
  rcases hfind : rfind [nl] data with _ | i
  · rfl
  · have hmem : nl ∈ data.drop i := (prefix_of_rfind hfind).subset (List.mem_singleton.mpr rfl)
    exact absurd (List.mem_of_mem_drop hmem) h

/-- What is behind the last line end is of no matter. -/
theorem rfind_single_append {rest : List α} (h : nl ∉ rest) :
    rfind [nl] (data ++ [nl] ++ rest) = some data.length := by
  have hlast : rfind [nl] (nl :: rest) = some 0 := by
    rw [rfind, rfind_single_eq_none h]
    exact if_pos (List.prefix_append [nl] rest)
  rw [List.append_assoc]
  exact rfind_append hlast

/-- The start of the line a position lies in. -/
theorem lineStart_lines {k : Nat} (h : IsLines nl (pre ++ l :: post)) (hk : k < l.length) :
    lineStart nl (pre ++ l :: post).flatten (pre.flatten.length + k) = pre.flatten.length := by
  have htake : (pre ++ l :: post).flatten.take (pre.flatten.length + k) =
      pre.flatten ++ l.take k := by
    rw [List.flatten_append, List.flatten_cons, List.take_length_add_append,
      List.take_append_of_le_length hk.le]
  have hmem := h.right.not_mem_take hk
  unfold lineStart
  rw [htake]
  rcases h.left with rfl | ⟨x, hx⟩
  · rw [List.flatten_nil, List.nil_append, rfind_single_eq_none hmem]
    rfl
  · rw [hx, rfind_single_append hmem, List.length_append]
    rfl

/-- The first line from a position on that holds a piece: the position's own line, as far as
it is left, or the first one of those that follow. -/
theorem lineFrom_lines (h : IsLines nl (pre ++ l :: post)) (hpiece : nl ∉ piece) (hne : piece ≠ [])
    (hi : nl ∉ l.take i) (hle : i ≤ l.length) :
    lineFrom nl piece (pre ++ l :: post).flatten (pre.flatten.length + i) =
      if piece <:+: l.drop i then some pre.flatten.length
      else if ∃ m ∈ post, piece <:+: m then
        some (pre.flatten.length + l.length +
          (post.takeWhile fun m => ¬ piece <:+: m).flatten.length)
      else none := by
  have hdata : (pre ++ l :: post).flatten.drop (pre.flatten.length + i) =
      (l.drop i :: post).flatten := by
    rw [List.flatten_append, List.flatten_cons, List.drop_length_add_append,
      List.drop_append_of_le_length hle]
    rfl
  have hnone : find piece (l.drop i :: post).flatten = none →
      lineFrom nl piece (pre ++ l :: post).flatten (pre.flatten.length + i) = none := by
    intro hfind
    rw [lineFrom, findFrom, hdata, hfind]
    rfl
  rcases h.right.drop hi with ⟨hdrop, rfl⟩ | hlines
  · rw [hdrop, if_neg fun hc => hne (List.infix_nil.mp hc),
      if_neg fun hc => by obtain ⟨m, hm, -⟩ := hc; exact absurd hm List.not_mem_nil]
    refine hnone ?_
    rw [hdrop]
    exact if_neg hne
  · rcases find_lines hlines hpiece hne with ⟨hfind, hall⟩ | ⟨before, m, after, k, heq, hbefore,
      hheld, hk, hfind⟩
    · obtain ⟨hl, hpost⟩ := List.forall_mem_cons.mp hall
      rw [if_neg hl, if_neg fun hc => by obtain ⟨m, hm, hheld⟩ := hc; exact hpost m hm hheld]
      exact hnone hfind
    · rw [lineFrom, findFrom, hdata, hfind, Option.map_some, Option.map_some]
      rcases before with _ | ⟨_, before⟩
      · obtain ⟨rfl, rfl⟩ := List.cons.inj heq
        rw [List.length_drop] at hk
        rw [if_pos hheld, List.flatten_nil, List.length_nil, Nat.zero_add, Nat.add_comm k,
          Nat.add_assoc, lineStart_lines h (by omega)]
      · rw [List.cons_append] at heq
        obtain ⟨rfl, rfl⟩ := List.cons.inj heq
        obtain ⟨hl, hbefore⟩ := List.forall_mem_cons.mp hbefore
        have hlines' : IsLines nl ((pre ++ l :: before) ++ m :: after) := by
          rw [List.append_assoc]
          exact h
        have hstart := lineStart_lines hlines' hk
        rw [if_neg hl, if_pos ⟨m, List.mem_append_right _ (List.mem_cons_self ..), hheld⟩,
          takeWhile_before hbefore (not_not.mpr hheld)]
        have hlength : (pre ++ l :: before).flatten.length =
            pre.flatten.length + l.length + before.flatten.length := by
          rw [List.flatten_append, List.flatten_cons, List.length_append, List.length_append,
            Nat.add_assoc]
        rw [hlength, List.append_assoc] at hstart
        rw [List.flatten_cons, List.length_append, List.length_drop,
          show l.length - i + before.flatten.length + k + (pre.flatten.length + i) =
            pre.flatten.length + l.length + before.flatten.length + k by omega]
        exact congrArg some hstart

/-! ### A text that goes on

Where a text is the end of a longer one, its first line may be the end of a line.  All its other
lines are whole.
-/

/-- A text in front of another one completes its first line. -/
theorem lines_append {l : List α} {ls : List (List α)} (h : lines nl body = l :: ls)
    (data : List α) :
    ∃ p y, data = p.flatten ++ y ∧ lines nl (data ++ body) = p ++ (y ++ l) :: ls := by
  induction data with
  | nil => exact ⟨[], [], rfl, h⟩
  | cons a data ih =>
      obtain ⟨p, y, hdata, hlines⟩ := ih
      rw [List.cons_append, lines]
      by_cases ha : a = nl
      · rw [if_pos ha, hlines]
        exact ⟨[a] :: p, y, by rw [hdata]; rfl, rfl⟩
      · rw [if_neg ha, hlines]
        rcases p with _ | ⟨first, p⟩
        · exact ⟨[], a :: y, by rw [hdata]; rfl, rfl⟩
        · exact ⟨(a :: first) :: p, y, by rw [hdata]; rfl, rfl⟩

end Lines
