/-
Rectangular arrays, stored row by row.

A plane knows its shape, and its pixels are as many as the shape says.  Assigning to a
block of it follows the array library's rules: slice bounds may be negative and are
clipped, and a source one row high or one column wide is repeated.  Two planes that
agree somewhere still agree there, and also on the block, when the same source is
assigned to both; once the blocks cover a plane, what it held before is gone.
-/
import Mathlib.Data.List.GetD
import Mathlib.Tactic.Common

/-- `height` rows of `width` pixels each. -/
structure Plane (α : Type) where
  height : Nat
  width : Nat
  pixels : List α
  sized : pixels.length = height * width
  deriving DecidableEq

namespace Plane

variable {α β : Type}

/-- `p.shape` -/
def shape (p : Plane α) : Nat × Nat := (p.height, p.width)

/-! ### Pixels by position

The pixels are a list, and the one in row `y` and column `x` stands at `y * width + x`.  Two planes
of one shape are the same when they have the same pixel at every position; that is how all
equations of planes below are shown.
-/

/-- The plane with a given pixel at each position. -/
def tabulate (height width : Nat) (f : Nat → Nat → α) : Plane α :=
  ⟨height, width, (List.range (height * width)).map fun k => f (k / width) (k % width), by
    rw [List.length_map, List.length_range]⟩

/-- The pixel in row `y` and column `x`. -/
def pixel [Inhabited α] (p : Plane α) (y x : Nat) : α := p.pixels.getD (y * p.width + x) default

/-- A position inside the plane is one of its pixels. -/
theorem index_lt {height width y x : Nat} (hy : y < height) (hx : x < width) :
    y * width + x < height * width :=
  calc y * width + x < y * width + width := by omega
    _ = (y + 1) * width := (Nat.succ_mul y width).symm
    _ ≤ height * width := Nat.mul_le_mul_right width hy

/-- The row can be told from the place in the list, -/
theorem index_row {width y x : Nat} (hx : x < width) : (y * width + x) / width = y := by
  rw [Nat.add_comm, Nat.add_mul_div_right _ _ (by omega), Nat.div_eq_of_lt hx, Nat.zero_add]

/-- and so can the column. -/
theorem index_col {width y x : Nat} (hx : x < width) : (y * width + x) % width = x := by
  rw [Nat.add_comm, Nat.add_mul_mod_self_right, Nat.mod_eq_of_lt hx]

@[simp] theorem height_tabulate (height width : Nat) (f : Nat → Nat → α) :
    (tabulate height width f).height = height := rfl

@[simp] theorem width_tabulate (height width : Nat) (f : Nat → Nat → α) :
    (tabulate height width f).width = width := rfl

variable [Inhabited α]

/-- A plane that is made of its pixels has them. -/
theorem pixel_tabulate {height width y x : Nat} (f : Nat → Nat → α) (hy : y < height)
    (hx : x < width) : (tabulate height width f).pixel y x = f y x := by
  have hlt := index_lt hy hx
  unfold pixel tabulate
  dsimp only
  rw [List.getD_eq_getElem _ _ (by rw [List.length_map, List.length_range]; exact hlt),
    List.getElem_map, List.getElem_range, index_row hx, index_col hx]

/-- Planes of one shape with the same pixels are the same. -/
theorem ext_pixel {p q : Plane α} (hheight : p.height = q.height) (hwidth : p.width = q.width)
    (h : ∀ y x, y < p.height → x < p.width → p.pixel y x = q.pixel y x) : p = q := by
  obtain ⟨height, width, pixels, sized⟩ := p
  obtain ⟨height', width', pixels', sized'⟩ := q
  dsimp only at hheight hwidth
  subst hheight hwidth
  have hpixels : pixels = pixels' := by
    apply List.ext_getElem (sized.trans sized'.symm)
    intro k hk hk'
    have hpos : 0 < width := by
      rcases Nat.eq_zero_or_pos width with rfl | hpos
      · omega
      · exact hpos
    have hrow : k / width < height := Nat.div_lt_of_lt_mul (by rw [Nat.mul_comm]; omega)
    have hpixel := h (k / width) (k % width) hrow (Nat.mod_lt k hpos)
    unfold pixel at hpixel
    dsimp only at hpixel
    rw [Nat.div_add_mod' k width, List.getD_eq_getElem _ _ hk, List.getD_eq_getElem _ _ hk']
      at hpixel
    exact hpixel
  subst hpixels
  rfl

/-- Every pixel converted. -/
def map (f : α → β) (p : Plane α) : Plane β :=
  ⟨p.height, p.width, p.pixels.map f, by rw [List.length_map, p.sized]⟩

/-- `array[:, ::-1]` -/
def flipX (p : Plane α) : Plane α :=
  tabulate p.height p.width fun y x => p.pixel y (p.width - 1 - x)

/-- `array[::-1, :]` -/
def flipY (p : Plane α) : Plane α :=
  tabulate p.height p.width fun y x => p.pixel (p.height - 1 - y) x

/-! ### Assigning to a block

Bounds are clipped before anything else, so that a block always lies inside the plane.  A source of
another shape is refused, unless its one row or column can stand for all.
-/

/-- A slice bound, counted from the end when it is negative, and clipped. -/
def sliceBound (length : Nat) (bound : Int) : Nat :=
  if bound < 0 then (bound + length).toNat else min bound.toNat length

/-- A bound inside the plane is what it is. -/
theorem sliceBound_of_le {length : Nat} {bound : Int} (hpos : 0 ≤ bound)
    (hle : bound ≤ length) : (sliceBound length bound : Int) = bound := by
  unfold sliceBound
  rw [if_neg (by omega), Nat.min_eq_left (by omega), Int.toNat_of_nonneg hpos]

/-- The positions of the block `p[y0:y1, x0:x1]`. -/
structure Block where
  top : Nat
  bottom : Nat
  left : Nat
  right : Nat

/-- `p[y0:y1, x0:x1]` -/
def block (p : Plane α) (y0 y1 x0 x1 : Int) : Block :=
  ⟨sliceBound p.height y0, sliceBound p.height y1, sliceBound p.width x0, sliceBound p.width x1⟩

def Block.Holds (b : Block) (y x : Nat) : Prop :=
  (b.top ≤ y ∧ y < b.bottom) ∧ b.left ≤ x ∧ x < b.right

instance (b : Block) (y x : Nat) : Decidable (b.Holds y x) :=
  inferInstanceAs (Decidable (_ ∧ _))

/-- A source can be repeated to the shape of the block. -/
def Block.Takes (b : Block) (source : Plane β) : Prop :=
  (source.height = b.bottom - b.top ∨ source.height = 1) ∧
    (source.width = b.right - b.left ∨ source.width = 1)

instance (b : Block) (source : Plane β) : Decidable (b.Takes source) :=
  inferInstanceAs (Decidable (_ ∧ _))

/-- The source's pixel for a position of the block. -/
def Block.sourcePixel (b : Block) (source : Plane α) (y x : Nat) : α :=
  source.pixel (if source.height = 1 then 0 else y - b.top)
    (if source.width = 1 then 0 else x - b.left)

/-- The block replaced by a source that it takes. -/
def assign (p : Plane α) (b : Block) (source : Plane α) : Plane α :=
  tabulate p.height p.width fun y x =>
    if b.Holds y x then b.sourcePixel source y x else p.pixel y x

/-- Planes of one shape, with the same pixels wherever `S` holds. -/
structure AgreeOn (S : Nat → Nat → Prop) (p q : Plane α) : Prop where
  height : p.height = q.height
  width : p.width = q.width
  pixel : ∀ y x, y < p.height → x < p.width → S y x → p.pixel y x = q.pixel y x

namespace AgreeOn

variable {S S' : Nat → Nat → Prop} {p q : Plane α}

/-- Planes of one shape agree nowhere in particular. -/
theorem nowhere (hheight : p.height = q.height) (hwidth : p.width = q.width) :
    AgreeOn (fun _ _ => False) p q :=
  ⟨hheight, hwidth, fun _ _ _ _ h => h.elim⟩

theorem block (h : AgreeOn S p q) (y0 y1 x0 x1 : Int) :
    p.block y0 y1 x0 x1 = q.block y0 y1 x0 x1 := by
  unfold Plane.block
  rw [h.height, h.width]

/-- **Assigning the same to both** makes them agree on the block as well. -/
theorem assign (h : AgreeOn S p q) (b : Block) (source : Plane α) :
    AgreeOn (fun y x => S y x ∨ b.Holds y x) (p.assign b source) (q.assign b source) := by
  refine ⟨h.height, h.width, ?_⟩
  intro y x hy hx hS
  unfold Plane.assign at hy hx ⊢
  rw [height_tabulate] at hy
  rw [width_tabulate] at hx
  rw [pixel_tabulate _ hy hx, pixel_tabulate _ (h.height ▸ hy) (h.width ▸ hx)]
  by_cases hb : b.Holds y x
  · rw [if_pos hb, if_pos hb]
  · rw [if_neg hb, if_neg hb]
    exact h.pixel y x hy hx (hS.resolve_right hb)

/-- Planes that agree everywhere are the same. -/
theorem eq (h : AgreeOn S p q) (hall : ∀ y x, y < p.height → x < p.width → S y x) : p = q :=
  ext_pixel h.height h.width fun y x hy hx => h.pixel y x hy hx (hall y x hy hx)

end AgreeOn

/-! ### As bytes

A plane crosses a buffer pixel by pixel, each in a field of the width of its kind.  Reading takes
the shape from elsewhere, since the bytes do not say it.
-/

/-- The pixels one after the other, each as `f` spells it. -/
def spell (f : α → List β) (p : Plane α) : List β := p.pixels.flatMap f

/-- The plane whose pixels are read from consecutive fields of a buffer. -/
def unspell (field : Nat) (f : List β → α) (height width : Nat) (l : List β) : Plane α :=
  tabulate height width fun y x => f ((l.drop (field * (y * width + x))).take field)

omit [Inhabited α] in
/-- As many fields as there are pixels. -/
theorem length_spell {f : α → List β} {field : Nat} (hf : ∀ a, (f a).length = field)
    (p : Plane α) : (p.spell f).length = p.height * p.width * field := by
  unfold spell
  rw [List.length_flatMap, List.map_congr_left (g := fun _ => field) fun a _ => hf a,
    List.map_const', List.sum_replicate_nat, p.sized]

omit [Inhabited α] in
/-- The field of pixel `k`. -/
theorem field_spell {f : α → List β} {field : Nat} (hf : ∀ a, (f a).length = field)
    {l : List α} : ∀ {k : Nat} (hk : k < l.length),
      ((l.flatMap f).drop (field * k)).take field = f l[k] := by
  induction l with
  | nil =>
      intro k hk
      exact absurd hk (Nat.not_lt_zero k)
  | cons a rest ih =>
      intro k hk
      rw [List.flatMap_cons]
      cases k with
      | zero =>
          rw [Nat.mul_zero, List.drop_zero, List.take_left' (hf a)]
          rfl
      | succ k =>
          rw [show field * (k + 1) = (f a).length + field * k by rw [hf a, Nat.mul_succ]; omega,
            List.drop_length_add_append]
          exact ih (Nat.lt_of_succ_lt_succ hk)

/-- **Pixels spelled out are read back.** -/
theorem unspell_spell {f : α → List β} {g : List β → α} {field : Nat}
    (hf : ∀ a, (f a).length = field) (hg : ∀ a, g (f a) = a) (p : Plane α) :
    unspell field g p.height p.width (p.spell f) = p := by
  refine ext_pixel (p := unspell ..) rfl rfl ?_
  intro y x hy hx
  unfold unspell at hy hx ⊢
  rw [height_tabulate] at hy
  rw [width_tabulate] at hx
  have hk : y * p.width + x < p.pixels.length := p.sized ▸ index_lt hy hx
  rw [pixel_tabulate _ hy hx]
  unfold spell pixel
  rw [field_spell hf hk, hg, List.getD_eq_getElem _ _ hk]

/-- Reading a plane looks at as many fields as it has pixels. -/
theorem unspell_take (field : Nat) (g : List β → α) (height width : Nat) (l : List β) :
    unspell field g height width (l.take (height * width * field)) =
      unspell field g height width l := by
  refine ext_pixel (p := unspell ..) rfl rfl ?_
  intro y x hy hx
  unfold unspell at hy hx ⊢
  rw [height_tabulate] at hy
  rw [width_tabulate] at hx
  rw [pixel_tabulate _ hy hx, pixel_tabulate _ hy hx, List.drop_take, List.take_take]
  have hfits : field * (y * width + x) + field ≤ height * width * field :=
    calc field * (y * width + x) + field = (y * width + x + 1) * field := by
          rw [Nat.succ_mul, Nat.mul_comm]
      _ ≤ height * width * field := Nat.mul_le_mul_right field (index_lt hy hx)
  rw [Nat.min_eq_left (by omega)]

end Plane
