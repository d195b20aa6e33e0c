/-
A buffer that is written in place.

`write` replaces as many entries as it is given, and only those, so what is read
elsewhere is what was there.  Pieces written at ranges that keep clear of each other can
be written in any order, and each is then read back.
-/
import Mathlib.Data.List.Basic
import Mathlib.Data.List.Perm.Basic
import Mathlib.Tactic.Common

namespace Buffer

variable {α : Type}

/-- `count` entries from `start` on, clipped to the buffer. -/
def read (l : List α) (start count : Nat) : List α := (l.drop start).take count

/-- `piece` in place of the entries from `start` on. -/
def write (l : List α) (start : Nat) (piece : List α) : List α :=
  l.take start ++ piece ++ l.drop (start + piece.length)

/-- Nothing is added, and nothing is lost. -/
theorem length_write {l piece : List α} {start : Nat} (h : start + piece.length ≤ l.length) :
    (write l start piece).length = l.length := by
  unfold write
  rw [List.length_append, List.length_append, List.length_take, List.length_drop]
  omega

/-- What was written is read back. -/
theorem read_write_self {l piece : List α} {start : Nat} (h : start + piece.length ≤ l.length) :
    read (write l start piece) start piece.length = piece := by
  have hlen : (l.take start).length = start := by
    rw [List.length_take]
    omega
  unfold read write
  rw [List.append_assoc, List.drop_left' hlen, List.take_left]

/-- What is before the piece is left alone. -/
theorem read_write_before {l piece : List α} {start pos count : Nat}
    (h : start + piece.length ≤ l.length) (hbefore : pos + count ≤ start) :
    read (write l start piece) pos count = read l pos count := by
  unfold read write
  rw [List.append_assoc, List.drop_append_of_le_length (by rw [List.length_take]; omega),
    List.take_append_of_le_length (by rw [List.length_drop, List.length_take]; omega),
    List.drop_take, List.take_take]
  rw [show min count (start - pos) = count by omega]

/-- What is behind the piece is left alone. -/
theorem read_write_after {l piece : List α} {start pos count : Nat}
    (h : start + piece.length ≤ l.length) (hafter : start + piece.length ≤ pos) :
    read (write l start piece) pos count = read l pos count := by
  have hlen : (l.take start ++ piece).length = start + piece.length := by
    rw [List.length_append, List.length_take]
    omega
  unfold read write
  rw [List.drop_append, List.drop_eq_nil_of_le (by omega), List.nil_append, hlen, List.drop_drop,
    show start + piece.length + (pos - (start + piece.length)) = pos by omega]

/-- Two ranges share no position. -/
def Clear (start count pos count' : Nat) : Prop :=
  ∀ k, start ≤ k → k < start + count → pos ≤ k → pos + count' ≤ k

/-- A range that ends before another starts is clear of it. -/
theorem clear_of_le {start count pos count' : Nat} (h : start + count ≤ pos) :
    Clear start count pos count' := by
  intro k _ _ _
  omega

/-- Whichever comes first. -/
theorem Clear.symm {start count pos count' : Nat} (h : Clear start count pos count') :
    Clear pos count' start count := by
  intro k hpos hend hstart
  by_contra hlt
  have := h k hstart (Nat.not_le.mp hlt) hpos
  omega

/-- Both ranges moved by the same distance. -/
theorem Clear.shift {start count pos count' : Nat} (h : Clear start count pos count')
    (distance : Nat) : Clear (distance + start) count (distance + pos) count' := by
  intro k hstart hend hpos
  have := h (k - distance) (by omega) (by omega) (by omega)
  omega

/-- Ranges that share no position are empty or in order. -/
theorem Clear.ordered {start count pos count' : Nat} (h : Clear start count pos count') :
    count = 0 ∨ count' = 0 ∨ start + count ≤ pos ∨ pos + count' ≤ start := by
  have hstart := h start (Nat.le_refl _)
  have hpos := h pos
  omega

/-- A piece that is clear of a range leaves it alone. -/
theorem read_write_clear {l piece : List α} {start pos count : Nat}
    (h : start + piece.length ≤ l.length) (hclear : Clear start piece.length pos count) :
    read (write l start piece) pos count = read l pos count := by
  rcases hclear.ordered with hpiece | hcount | hbehind | hbefore
  · unfold write
    rw [List.eq_nil_of_length_eq_zero hpiece, List.append_nil, List.length_nil, Nat.add_zero,
      List.take_append_drop]
  · unfold read
    rw [hcount, List.take_zero, List.take_zero]
  · exact read_write_after h hbehind
  · exact read_write_before h hbefore

/-! ### Several pieces

A list of pieces is written one after the other, and what counts is what a reader finds who comes
after all of them.  Where the pieces keep clear of each other the order makes no difference to
that; the induction is on the pieces, and each later one leaves the earlier alone.
-/

/-- Pieces written one after the other. -/
def writeAll (l : List α) (pieces : List (Nat × List α)) : List α :=
  pieces.foldl (fun l piece => write l piece.1 piece.2) l

/-- The pieces lie inside the buffer. -/
def Fits (length : Nat) (pieces : List (Nat × List α)) : Prop :=
  ∀ piece ∈ pieces, piece.1 + piece.2.length ≤ length

/-- The pieces keep clear of each other. -/
def Apart (pieces : List (Nat × List α)) : Prop :=
  pieces.Pairwise fun p q => Clear p.1 p.2.length q.1 q.2.length

/-- However many are written, the buffer stays as long as it was. -/
theorem length_writeAll {pieces : List (Nat × List α)} :
    ∀ {l : List α}, Fits l.length pieces → (writeAll l pieces).length = l.length := by
  induction pieces with
  | nil =>
      intro l _
      rfl
  | cons piece rest ih =>
      intro l hfits
      have hpiece := length_write (hfits piece (List.mem_cons_self ..))
      show (writeAll (write l piece.1 piece.2) rest).length = _
      rw [ih (by rw [hpiece]; exact fun q hq => hfits q (List.mem_cons_of_mem _ hq)), hpiece]

/-- What all the pieces keep clear of is left alone. -/
theorem read_writeAll_clear {pieces : List (Nat × List α)} {pos count : Nat} :
    ∀ {l : List α}, Fits l.length pieces →
      (∀ piece ∈ pieces, Clear piece.1 piece.2.length pos count) →
      read (writeAll l pieces) pos count = read l pos count := by
  induction pieces with
  | nil =>
      intro l _ _
      rfl
  | cons piece rest ih =>
      intro l hfits hclear
      have hpiece := hfits piece (List.mem_cons_self ..)
      show read (writeAll (write l piece.1 piece.2) rest) pos count = _
      rw [ih, read_write_clear hpiece (hclear piece (List.mem_cons_self ..))]
      · rw [length_write hpiece]
        exact fun q hq => hfits q (List.mem_cons_of_mem _ hq)
      · exact fun q hq => hclear q (List.mem_cons_of_mem _ hq)

/-- **Pieces written apart are all read back.** -/
theorem read_writeAll {pieces : List (Nat × List α)} :
    ∀ {l : List α}, Fits l.length pieces → Apart pieces →
      ∀ piece ∈ pieces, read (writeAll l pieces) piece.1 piece.2.length = piece.2 := by
  induction pieces with
  | nil =>
      intro l _ _ piece hpiece
      exact absurd hpiece List.not_mem_nil
  | cons head rest ih =>
      intro l hfits hapart piece hpiece
      obtain ⟨hhead, hrest⟩ := List.pairwise_cons.mp hapart
      have hfirst := hfits head (List.mem_cons_self ..)
      have hfits' : Fits (write l head.1 head.2).length rest := by
        rw [length_write hfirst]
        exact fun q hq => hfits q (List.mem_cons_of_mem _ hq)
      show read (writeAll (write l head.1 head.2) rest) _ _ = _
      rcases List.mem_cons.mp hpiece with rfl | htail
      · rw [read_writeAll_clear hfits' fun q hq => (hhead q hq).symm]
        exact read_write_self hfirst
      · exact ih hfits' hrest piece htail

/-- Keeping clear of each other does not go by the order. -/
theorem Apart.perm {pieces pieces' : List (Nat × List α)} (h : Apart pieces)
    (hperm : pieces.Perm pieces') : Apart pieces' :=
  hperm.pairwise h fun hclear => hclear.symm

end Buffer
