/-
A page of a result table, as JSON can carry it.

JSON has no number that is not finite, and a browser's only numbers are doubles.  What is
not finite becomes null; whole numbers beyond what every double can tell apart become text,
the whole column of the page at a time.
-/
import Mathlib.Algebra.GroupWithZero.Nat
import Mathlib.Algebra.Ring.Int.Defs
import Mathlib.Data.List.Nodup
import Mathlib.Tactic.Common
import DonutServer.SensorFiles

namespace DonutServer.Dashboard

/-! ### Tables

A table is what the decoder of its file gives: named columns of one length, each with a type that
its cells are of.  Types matter here by their texts, which is what the source looks at, so the
names are spelled as Arrow spells them.
-/

/-- A double, by its bits. -/
abbrev Double := BitVec 64

/-- `math.isfinite`. -/
def isFinite (x : Double) : Bool := x.extractLsb' 52 11 ≠ 0x7ff#11

/-- What a cell that is no list may hold. -/
inductive Scalar
  | null
  | int (n : Int)
  | float (x : Double)
  | bool (b : Bool)
  | text (s : String)
  deriving DecidableEq

inductive Cell
  | scalar (v : Scalar)
  | list (vs : List Scalar)
  deriving DecidableEq

inductive Width
  | w8
  | w16
  | w32
  | w64

/-- How many bits wide it is. -/
def Width.bits : Width → Nat
  | .w8 => 8
  | .w16 => 16
  | .w32 => 32
  | .w64 => 64

inductive ScalarType
  | int (width : Width)
  | uint (width : Width)
  | halffloat
  | float
  | double
  | bool
  | string

/-- `str` of a type. -/
def ScalarType.name : ScalarType → String
  | .int width => s!"int{width.bits}"
  | .uint width => s!"uint{width.bits}"
  | .halffloat => "halffloat"
  | .float => "float"
  | .double => "double"
  | .bool => "bool"
  | .string => "string"

/-- The values of a type. -/
def ScalarType.Admits : ScalarType → Scalar → Prop
  | _, .null => True
  | .int width, .int n => -2 ^ (width.bits - 1) ≤ n ∧ n < 2 ^ (width.bits - 1)
  | .uint width, .int n => 0 ≤ n ∧ n < 2 ^ width.bits
  | .halffloat, .float _ | .float, .float _ | .double, .float _ => True
  | .bool, .bool _ => True
  | .string, .text _ => True
  | _, _ => False

inductive ColumnType
  | scalar (type : ScalarType)
  | list (itemName : String) (item : ScalarType)
  | fixedSizeList (itemName : String) (item : ScalarType) (size : Nat)

/-- `str` of a column's type. -/
def ColumnType.name : ColumnType → String
  | .scalar type => type.name
  | .list itemName item => s!"list<{itemName}: {item.name}>"
  | .fixedSizeList itemName item size => s!"fixed_size_list<{itemName}: {item.name}>[{size}]"

/-- `type.num_fields`. -/
def ColumnType.numFields : ColumnType → Nat
  | .scalar _ => 0
  | .list _ _ | .fixedSizeList _ _ _ => 1

/-- `type.list_size`, where there is one. -/
def ColumnType.listSize : ColumnType → Option Nat
  | .fixedSizeList _ _ size => some size
  | _ => none

def ColumnType.Admits : ColumnType → Cell → Prop
  | .scalar type, .scalar v => type.Admits v
  | .list _ _, .scalar v | .fixedSizeList _ _ _, .scalar v => v = .null
  | .list _ item, .list vs => ∀ v ∈ vs, item.Admits v
  | .fixedSizeList _ item size, .list vs => vs.length = size ∧ ∀ v ∈ vs, item.Admits v
  | .scalar _, .list _ => False

/-- A column whose cells are of its type. -/
structure Column where
  name : String
  type : ColumnType
  cells : List Cell
  typed : ∀ c ∈ cells, type.Admits c

/-- A table of columns of one length, each under a name of its own. -/
structure Table where
  columns : List Column
  numRows : Nat
  rows : ∀ c ∈ columns, c.cells.length = numRows
  names : (columns.map (·.name)).Nodup

def Column.slice (c : Column) (offset limit : Nat) : Column where
  name := c.name
  type := c.type
  cells := (c.cells.drop offset).take limit
  typed := fun cell hcell => c.typed cell (List.mem_of_mem_drop (List.mem_of_mem_take hcell))

/-- `table.slice(offset, limit)`. -/
def Table.slice (t : Table) (offset limit : Nat) : Table where
  columns := t.columns.map fun c => c.slice offset limit
  numRows := min limit (t.numRows - offset)
  rows := by
    intro page hpage
    obtain ⟨c, hc, rfl⟩ := List.mem_map.mp hpage
    show ((c.cells.drop offset).take limit).length = _
    rw [List.length_take, List.length_drop, t.rows c hc]
  names := by
    rw [List.map_map]
    exact t.names

/-! ### Cleaning

A value is cleaned by itself, and a column is looked at as a whole to decide how.  The decision
goes by the cells of the page, and not by all that the table has.
-/

/-- `PAGE_DEFAULT`. -/
def pageDefault : Nat := 200

/-- `PAGE_MAX`. -/
def pageMax : Nat := 2000

/-- `JS_SAFE_INT`. -/
def jsSafeInt : Nat := 2 ^ 53

/-- `_clean_scalar`, or `_finite` of what is a float. -/
def cleanScalar : Scalar → Scalar
  | .float x => if isFinite x then .float x else .null
  | v => v

/-- `_clean_list`. -/
def cleanList : Cell → Cell
  | .list vs => .list (vs.map cleanScalar)
  | .scalar v => .scalar v

/-- `None if v is None else str(v)`, of an integer. -/
def stringify : Cell → Cell
  | .scalar (.int n) => .scalar (.text (toString n))
  | c => c

/-- An integer that JavaScript may not represent. -/
def tooBig : Cell → Bool
  | .scalar (.int n) => jsSafeInt ≤ n.natAbs
  | _ => false

inductive Kind
  | array
  | float
  | int
  | bool
  | string
  deriving DecidableEq

/-- `name.startswith(start)`. -/
def hasPrefix (name start : String) : Bool := start.toList.isPrefixOf name.toList

/-- What the dashboard takes the column for, by the text of its type. -/
def ColumnType.kind (type : ColumnType) : Kind :=
  if type.numFields ≠ 0 || hasPrefix type.name "fixed_size_list" || hasPrefix type.name "list" then
    .array
  else if hasPrefix type.name "double" || hasPrefix type.name "float" then .float
  else if hasPrefix type.name "int" || hasPrefix type.name "uint" then .int
  else if type.name = "bool" then .bool
  else .string

structure Descriptor where
  name : String
  kind : Kind
  type : String
  width : Option Nat
  deriving DecidableEq

/-- What is said of a column. -/
def describe (t : Table) : List Descriptor :=
  t.columns.map fun c =>
    ⟨c.name, c.type.kind, c.type.name, if c.type.kind = .array then c.type.listSize else none⟩

/-- Whether a column's values are looked at one by one. -/
def ColumnType.isWhole (type : ColumnType) : Bool :=
  hasPrefix type.name "int" || hasPrefix type.name "uint"

/-- `_stringify_columns`. -/
def stringifyColumns (t : Table) : List String :=
  (t.columns.filter fun c => c.type.isWhole && c.cells.any tooBig).map (·.name)

/-- What is made of a cell, in a column that is turned into text or not. -/
def ColumnType.clean (type : ColumnType) (asString : Bool) (c : Cell) : Cell :=
  if type.kind = .array then cleanList c
  else if asString then stringify c
  else
    match c with
    | .scalar v => .scalar (cleanScalar v)
    | .list vs => .list vs

/-- How many cells have lost a number that is not finite. -/
def Column.nans (c : Column) (asString : Bool) : Nat :=
  let cleaned := c.cells.map (c.type.clean asString)
  if c.type.kind = .array then
    cleaned.countP fun
      | .list vs => vs.any (· = .null)
      | .scalar _ => false
  else if asString then 0
  else (c.cells.zip cleaned).countP fun p => p.2 = .scalar .null && p.1 ≠ .scalar .null

/-! ### A page

The limit is clamped to what a payload may hold, and the offset to the table, so that every request
gets a page.
-/

structure Payload where
  nRows : Nat
  offset : Nat
  returned : Nat
  limit : Nat
  schema : List Descriptor
  nanCounts : List (String × Nat)
  stringified : List String
  columns : List String
  data : List (String × List Cell)

/-- The limit that is used: a row at least, and no more than `pageMax`. -/
def clampLimit (limit : Int) : Nat := (max 1 (min (pageMax : Int) limit)).toNat

/-- The offset that is used: none before the first row, and none behind the last. -/
def clampOffset (nRows : Nat) (offset : Int) : Nat := (max 0 (min offset nRows)).toNat

/-- `read`, of a table that is decoded.  No names of columns mean all of them. -/
def read (table : Table) (offset : Int := 0) (limit : Int := pageDefault)
    (columns : List String := []) : Payload :=
  let limit := clampLimit limit
  let offset := clampOffset table.numRows offset
  let page := table.slice offset limit
  let wanted := page.columns.filter fun c => columns.isEmpty || c.name ∈ columns
  let asString := stringifyColumns page
  { nRows := table.numRows
    offset := offset
    returned := page.numRows
    limit := limit
    schema := describe table
    nanCounts := (wanted.map fun c => (c.name, c.nans (c.name ∈ asString))).filter fun e => e.2 ≠ 0
    stringified := sortedTexts asString
    columns := wanted.map (·.name)
    data := wanted.map fun c => (c.name, c.cells.map (c.type.clean (c.name ∈ asString))) }

end DonutServer.Dashboard
