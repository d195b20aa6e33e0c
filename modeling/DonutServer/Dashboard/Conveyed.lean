/-
What a browser reads of a page.

Its only numbers are doubles, so a number of a payload is read as the nearest one.  A column
of whole numbers comes as text before that matters.  The numbers in a list never do.

That a number's text is read back as the number is a fact of the standard library that no single
module of Mathlib brings along, so that this module imports it whole.
-/
import Mathlib
import DonutServer.Dashboard.Paging
import DonutServer.Lib.Significant

namespace DonutServer.Dashboard

open Significant

/-! ### A client

JSON itself has numbers of any length, and a client may be written in anything.  This one is a
browser, which the dashboard is for: it reads a number as a double, and text as text.  What has to
arrive is the value that was in the table, a whole number digit for digit.
-/

/-- The whole number that a client reads, of a number or of text. -/
def clientInt : Scalar → Option Int
  | .int n => some (roundInt 53 n)
  | .text s => s.toInt?
  | _ => none

/-- What a value has to arrive as. -/
def Conveyed : Scalar → Scalar → Prop
  | .int n, shown => clientInt shown = some n
  | .float x, shown => shown = if isFinite x then .float x else .null
  | v, shown => shown = v

/-- A list arrives value by value. -/
def Cell.Conveyed : Cell → Cell → Prop
  | .scalar v, .scalar shown => Dashboard.Conveyed v shown
  | .list vs, .list shown => List.Forall₂ Dashboard.Conveyed vs shown
  | _, _ => False

/-- What JSON can carry. -/
def Scalar.IsJson : Scalar → Prop
  | .float x => isFinite x = true
  | _ => True

def Cell.IsJson : Cell → Prop
  | .scalar v => v.IsJson
  | .list vs => ∀ v ∈ vs, v.IsJson

/-- **Nothing is corrupted on the way**: JSON can carry all of a payload, and each cell of the
page arrives. -/
structure Faithful (table : Table) (columns : List String) (offset limit : Int) : Prop where
  isJson : ∀ entry ∈ (read table offset limit columns).data, ∀ cell ∈ entry.2, cell.IsJson
  conveyed : ∀ c ∈ table.columns, Wanted columns c → ∃ shown,
    (read table offset limit columns).data.lookup c.name = some shown ∧
      List.Forall₂ Cell.Conveyed (pageCells table.numRows c (offset, limit)) shown

variable {table : Table} {columns : List String} {c : Column} {cell : Cell}

/-! ### Values

A whole number that became text arrives always, and one that stayed a number just where a double
holds it.
-/

/-- A whole number as text is read digit for digit. -/
theorem conveyed_stringify (n : Int) : Conveyed (.int n) (.text (toString n)) :=
  Int.toInt?_repr n

/-- A value as it is arrives, unless it is a whole number that no double holds. -/
theorem conveyed_cleanScalar (v : Scalar) :
    Conveyed v (cleanScalar v) ↔ ∀ n, v = .int n → FitsIn 53 n.natAbs := by
  cases v with
  | int n =>
      show some (roundInt 53 n) = some n ↔ _
      rw [Option.some_inj, roundInt_eq_self]
      constructor
      · intro h m hm
        cases hm
        exact h
      · intro h
        exact h n rfl
  | _ =>
      constructor
      · intro _ n hn
        cases hn
      · intro _
        rfl

/-- What has been cleaned is something JSON can carry. -/
theorem isJson_cleanScalar (v : Scalar) : (cleanScalar v).IsJson := by
  cases v with
  | float x =>
      show (if isFinite x then Scalar.float x else .null).IsJson
      split
      next h => exact h
      next => trivial
  | _ => trivial

/-! ### Cells

A cell is cleaned by the kind of its column.  A list is always cleaned value by value, whatever the
page makes of its column, because the check for big numbers looks at columns of whole numbers only;
the cells of those columns are no lists.
-/

/-- A cell that is no list, of a column of lists, is a null. -/
theorem null_of_array {v : Scalar} (hkind : c.type.kind = .array) (hcell : .scalar v ∈ c.cells) :
    v = .null := by
  have htyped := c.typed _ hcell
  rcases htype : c.type with t | _ | _
  · rw [htype] at hkind
    exact absurd hkind (kind_of_scalar t)
  all_goals
    rw [htype] at htyped
    exact htyped

/-- Lists stand in columns of lists. -/
theorem array_of_list {vs : List Scalar} (hcell : .list vs ∈ c.cells) : c.type.kind = .array := by
  have htyped := c.typed _ hcell
  refine kind_of_list fun t htype => ?_
  rw [htype] at htyped
  exact htyped

/-- A whole number stands in a column of whole numbers. -/
theorem whole_of_int {n : Int} (hcell : .scalar (.int n) ∈ c.cells) : c.type.isWhole = true := by
  have htyped := c.typed _ hcell
  rcases htype : c.type with t | _ | _
  · rw [htype] at htyped
    cases t with
    | int width => exact isWhole_scalar.mpr (Or.inl ⟨width, rfl⟩)
    | uint width => exact isWhole_scalar.mpr (Or.inr ⟨width, rfl⟩)
    | _ => exact absurd htyped (fun h => h)
  all_goals
    rw [htype] at htyped
    cases htyped

/-- A list is cleaned value by value. -/
theorem clean_list (asString : Bool) {vs : List Scalar} (hcell : .list vs ∈ c.cells) :
    c.type.clean asString (.list vs) = .list (vs.map cleanScalar) :=
  if_pos (array_of_list hcell)

/-- In a column of lists, what is no list is cleaned as it is. -/
theorem clean_scalar_of_array (asString : Bool) {v : Scalar} (hkind : c.type.kind = .array)
    (hcell : .scalar v ∈ c.cells) : c.type.clean asString (.scalar v) = .scalar (cleanScalar v) := by
  rw [null_of_array hkind hcell]
  exact if_pos hkind

/-- In any other column a value is cleaned as it is, -/
theorem clean_scalar {v : Scalar} (hkind : c.type.kind ≠ .array) :
    c.type.clean false (.scalar v) = .scalar (cleanScalar v) :=
  (if_neg hkind).trans (if_neg (by simp))

/-- or turned into text. -/
theorem clean_asString {v : Scalar} (hkind : c.type.kind ≠ .array) :
    c.type.clean true (.scalar v) = stringify (.scalar v) :=
  (if_neg hkind).trans (if_pos rfl)

/-- A cell arrives, but for the numbers of a list that a double cannot hold. -/
theorem clean_conveyed {asString : Bool} (hcell : cell ∈ c.cells)
    (hstring : asString = true → c.type.isWhole = true)
    (hsmall : asString = false → c.type.isWhole = true → tooBig cell = false) :
    cell.Conveyed (c.type.clean asString cell) ↔
      ∀ vs, cell = .list vs → ∀ n, .int n ∈ vs → FitsIn 53 n.natAbs := by
  cases cell with
  | list vs =>
      rw [clean_list asString hcell]
      show List.Forall₂ _ vs (vs.map cleanScalar) ↔ _
      rw [List.forall₂_map_right_iff, List.forall₂_same]
      simp only [conveyed_cleanScalar]
      constructor
      · intro h ws hws n hn
        cases hws
        exact h _ hn n rfl
      · intro h v hv n hn
        exact h vs rfl n (hn ▸ hv)
  | scalar v =>
      refine iff_of_true ?_ (fun vs hvs => by cases hvs)
      by_cases hkind : c.type.kind = .array
      · rw [clean_scalar_of_array asString hkind hcell, null_of_array hkind hcell]
        rfl
      cases asString with
      | true =>
          rw [clean_asString hkind]
          rcases whole_cell (hstring rfl) hcell with hv | ⟨n, hv⟩
          · cases hv
            rfl
          · cases hv
            exact conveyed_stringify n
      | false =>
          rw [clean_scalar hkind]
          refine (conveyed_cleanScalar v).mpr fun n hn => fitsIn_of_lt ?_
          subst hn
          have hlt : decide (jsSafeInt ≤ n.natAbs) = false := hsmall rfl (whole_of_int hcell)
          exact Nat.lt_of_not_le (of_decide_eq_false hlt)

/-- A cell that has been cleaned is something JSON can carry. -/
theorem clean_isJson {asString : Bool} (hcell : cell ∈ c.cells)
    (hstring : asString = true → c.type.isWhole = true) :
    (c.type.clean asString cell).IsJson := by
  cases cell with
  | list vs =>
      rw [clean_list asString hcell]
      intro v hv
      obtain ⟨w, -, rfl⟩ := List.mem_map.mp hv
      exact isJson_cleanScalar w
  | scalar v =>
      by_cases hkind : c.type.kind = .array
      · rw [clean_scalar_of_array asString hkind hcell]
        exact isJson_cleanScalar v
      cases asString with
      | true =>
          rw [clean_asString hkind]
          rcases whole_cell (hstring rfl) hcell with hv | ⟨n, hv⟩
          · cases hv
            trivial
          · cases hv
            trivial
      | false =>
          rw [clean_scalar hkind]
          exact isJson_cleanScalar v

/-! ### Pages

A page shows its cells in the form that its columns call for, and they call for text as soon as one
cell of the page is too big.  So a column of whole numbers arrives whole, and what is left is the
lists.
-/

/-- The cells of a page arrive, where the numbers in its lists are ones that a double holds. -/
theorem pageShown_conveyed (n : Nat) (c : Column) (p : Int × Int) :
    List.Forall₂ Cell.Conveyed (pageCells n c p) (pageShown n c p) ↔
      ∀ vs, .list vs ∈ pageCells n c p → ∀ n, .int n ∈ vs → FitsIn 53 n.natAbs := by
  unfold pageShown
  rw [List.forall₂_map_right_iff, List.forall₂_same]
  have hcell : ∀ cell ∈ pageCells n c p,
      (cell.Conveyed (c.type.clean (c.type.isWhole && (pageCells n c p).any tooBig) cell) ↔
        ∀ vs, cell = .list vs → ∀ n, .int n ∈ vs → FitsIn 53 n.natAbs) := by
    intro cell hcell
    refine clean_conveyed (pageCells_subset n p hcell) ?_ ?_
    · intro h
      exact (Bool.and_eq_true_iff.mp h).1
    · intro h hwhole
      rw [hwhole, Bool.true_and] at h
      exact Bool.not_eq_true _ ▸ List.any_eq_false.mp h cell hcell
  constructor
  · intro h vs hvs
    exact (hcell _ hvs).mp (h _ hvs) vs rfl
  · intro h cell hmem
    refine (hcell cell hmem).mpr fun vs hvs => ?_
    exact h vs (hvs ▸ hmem)

/-- JSON can carry what a page shows. -/
theorem pageShown_isJson (n : Nat) (c : Column) (p : Int × Int) :
    ∀ cell ∈ pageShown n c p, cell.IsJson := by
  intro cell hcell
  obtain ⟨original, horiginal, rfl⟩ := List.mem_map.mp hcell
  refine clean_isJson (pageCells_subset n p horiginal) fun h => ?_
  exact (Bool.and_eq_true_iff.mp h).1

/-- **A payload is faithful just where every number in a list is one that a double holds.** -/
theorem read_faithful (table : Table) (columns : List String) (offset limit : Int) :
    Faithful table columns offset limit ↔
      ∀ c ∈ table.columns, Wanted columns c →
        ∀ vs, .list vs ∈ pageCells table.numRows c (offset, limit) →
          ∀ n, .int n ∈ vs → FitsIn 53 n.natAbs := by
  constructor
  · intro h c hc hwanted
    obtain ⟨shown, hshown, hall⟩ := h.conveyed c hc hwanted
    rw [read_lookup hc hwanted (offset, limit)] at hshown
    cases hshown
    exact (pageShown_conveyed _ c _).mp hall
  · intro h
    refine ⟨fun entry hentry => ?_, fun c hc hwanted => ?_⟩
    · rw [read_data table columns (offset, limit)] at hentry
      obtain ⟨c, -, rfl⟩ := List.mem_map.mp hentry
      exact pageShown_isJson _ c _
    · exact ⟨_, read_lookup hc hwanted (offset, limit),
        (pageShown_conveyed _ c _).mpr (h c hc hwanted)⟩

/-- Ids of the donuts that a row is about. -/
def listedIds : Column where
  name := "donut_ids"
  type := .list "item" (.int .w64)
  cells := [.list [.int (2 ^ 53 + 1)]]
  typed := by
    intro cell hcell
    rw [List.mem_singleton.mp hcell]
    show ∀ v ∈ [Scalar.int (2 ^ 53 + 1)], ScalarType.Admits (.int .w64) v
    intro v hv
    rw [List.mem_singleton.mp hv]
    exact ⟨by decide, by decide⟩

/-- One column of such lists. -/
def listedTable : Table where
  columns := [listedIds]
  numRows := 1
  rows := by
    intro c hc
    rw [List.mem_singleton.mp hc]
    rfl
  names := List.nodup_singleton _

/-- The number next to the largest that all doubles can tell apart arrives as another. -/
theorem listed_id_is_rounded : ¬Faithful listedTable [] 0 200 := by
  intro h
  have hmem : listedIds ∈ listedTable.columns := List.mem_cons_self
  obtain ⟨shown, hshown, hall⟩ := h.conveyed listedIds hmem (Or.inl rfl)
  rw [read_lookup hmem (Or.inl rfl) (0, 200)] at hshown
  cases hshown
  have hfits := (pageShown_conveyed 1 listedIds (0, 200)).mp hall [.int (2 ^ 53 + 1)]
    List.mem_cons_self (2 ^ 53 + 1) List.mem_cons_self
  exact absurd (round_eq_self.mpr hfits) (by decide)

end DonutServer.Dashboard
