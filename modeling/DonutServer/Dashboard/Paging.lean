/-
Paging through a table.

Whether a column comes as numbers or as text is decided for each page by the values of that
page.  So the pages of a column agree unless it has numbers that are too big on some of them
and only small ones on another.
-/
import DonutServer.Dashboard.TableView

namespace DonutServer.Dashboard

/-! ### Pages that cover a table

A client reads a table page by page, each as long as it likes and the server allows.  `Covers` is
any way of doing so without a gap; the pages need not be of one length.
-/

/-- Pages that follow one another from a row on to the end of a table of `n` rows, each as an
offset and a limit. -/
inductive Covers (n : Nat) : Nat → List (Int × Int) → Prop
  | done : Covers n n []
  | page (start : Nat) (limit : Int) (rest : List (Int × Int)) :
      Covers n (start + min (clampLimit limit) (n - start)) rest →
      Covers n start (((start : Int), limit) :: rest)

/-- The cells of a column that a page is of. -/
def pageCells (n : Nat) (c : Column) (p : Int × Int) : List Cell :=
  (c.cells.drop (clampOffset n p.1)).take (clampLimit p.2)

/-- What the pages show of a column, one after the other. -/
def shownCells (table : Table) (columns : List String) (pages : List (Int × Int))
    (name : String) : List Cell :=
  pages.flatMap fun p => ((read table p.1 p.2 columns).data.lookup name).getD []

/-- The columns that are asked for. -/
def Wanted (columns : List String) (c : Column) : Prop := columns = [] ∨ c.name ∈ columns

/-- A column of whole numbers, one of them too big. -/
def Column.isBig (c : Column) : Bool := c.type.isWhole && c.cells.any tooBig

/-- **Paging is lossless and uniform**: the pages show every cell of a column, in order and
cleaned, and in the one form that the whole column calls for. -/
def Seamless (table : Table) (columns : List String) (pages : List (Int × Int)) : Prop :=
  ∀ c ∈ table.columns, Wanted columns c →
    shownCells table columns pages c.name = c.cells.map (c.type.clean c.isBig)

/-- A column has a number that is too big, and a page that has numbers of it but none such. -/
def Divided (table : Table) (columns : List String) (pages : List (Int × Int)) : Prop :=
  ∃ c ∈ table.columns, Wanted columns c ∧ c.isBig = true ∧ ∃ p ∈ pages,
    (∃ cell ∈ pageCells table.numRows c p, cell ≠ .scalar .null) ∧
      ∀ cell ∈ pageCells table.numRows c p, tooBig cell = false

variable {table : Table} {columns : List String} {pages : List (Int × Int)} {c : Column}

/-! ### Types and their names

What is made of a column goes by the text of its type, as Arrow prints it: a list's starts with one
of a few words, and a whole number's with one of two others.
-/

theorem not_hasPrefix {name start : String} {c : Char} (hname : name.toList.head? = some c)
    (hstart : ∃ b l, start.toList = b :: l ∧ b ≠ c) : hasPrefix name start = false := by
  obtain ⟨b, l, hstart, hne⟩ := hstart
  obtain ⟨rest, hname⟩ := List.head?_eq_some_iff.mp hname
  unfold hasPrefix
  rw [hstart, hname, List.isPrefixOf_cons_cons]
  simp [hne]

theorem head_listText (itemName item : String) :
    (s!"list<{itemName}: {item}>").toList.head? = some 'l' := by
  simp only [String.toList_append, toString]
  simp

theorem head_fixedSizeListText (itemName item : String) (size : Nat) :
    (s!"fixed_size_list<{itemName}: {item}>[{size}]").toList.head? = some 'f' := by
  simp only [String.toList_append]
  rw [show (toString "fixed_size_list<").toList = 'f' :: "ixed_size_list<".toList from rfl]
  rfl

theorem isWhole_of_head {type : ColumnType} {c : Char} (h : type.name.toList.head? = some c)
    (hi : 'i' ≠ c) (hu : 'u' ≠ c) : type.isWhole = false := by
  unfold ColumnType.isWhole
  rw [not_hasPrefix h ⟨'i', ['n', 't'], by decide, hi⟩,
    not_hasPrefix h ⟨'u', ['i', 'n', 't'], by decide, hu⟩]
  rfl

/-- A list is no whole number. -/
theorem isWhole_of_list {type : ColumnType} (h : ∀ t, type ≠ .scalar t) : type.isWhole = false := by
  cases type with
  | scalar t => exact absurd rfl (h t)
  | list itemName item => exact isWhole_of_head (head_listText itemName item.name) (by decide) (by decide)
  | fixedSizeList itemName item size =>
      exact isWhole_of_head (head_fixedSizeListText itemName item.name size) (by decide) (by decide)

theorem kind_of_list {type : ColumnType} (h : ∀ t, type ≠ .scalar t) : type.kind = .array := by
  have hfields : type.numFields = 1 := by
    rcases type with t | _ | _
    · exact absurd rfl (h t)
    · rfl
    · rfl
  unfold ColumnType.kind
  rw [hfields]
  rfl

theorem kind_of_scalar (type : ScalarType) : (ColumnType.scalar type).kind ≠ .array := by
  rcases type with width | width | _ | _ | _ | _ | _
  · rcases width <;> decide
  · rcases width <;> decide
  all_goals decide

theorem isWhole_scalar {type : ScalarType} : (ColumnType.scalar type).isWhole = true ↔
    (∃ width, type = .int width) ∨ ∃ width, type = .uint width := by
  cases type with
  | int width => exact ⟨fun _ => Or.inl ⟨width, rfl⟩, fun _ => by rcases width <;> decide⟩
  | uint width => exact ⟨fun _ => Or.inr ⟨width, rfl⟩, fun _ => by rcases width <;> decide⟩
  | _ =>
      refine ⟨fun h => absurd h (by decide), fun h => ?_⟩
      rcases h with ⟨_, h⟩ | ⟨_, h⟩ <;> cases h

/-- A column of whole numbers holds these, and nulls. -/
theorem whole_cell {cell : Cell} (hwhole : c.type.isWhole = true) (hcell : cell ∈ c.cells) :
    cell = .scalar .null ∨ ∃ n, cell = .scalar (.int n) := by
  have htyped := c.typed cell hcell
  rcases htype : c.type with t | ⟨itemName, item⟩ | ⟨itemName, item, size⟩
  · rw [htype] at hwhole htyped
    rcases cell with v | vs
    · rcases isWhole_scalar.mp hwhole with ⟨width, rfl⟩ | ⟨width, rfl⟩
      · rcases v with _ | n | _ | _ | _
        · exact Or.inl rfl
        · exact Or.inr ⟨n, rfl⟩
        all_goals exact absurd htyped (fun h => h)
      · rcases v with _ | n | _ | _ | _
        · exact Or.inl rfl
        · exact Or.inr ⟨n, rfl⟩
        all_goals exact absurd htyped (fun h => h)
    · exact absurd htyped (fun h => h)
  · rw [htype, isWhole_of_list (by simp)] at hwhole
    exact absurd hwhole (by simp)
  · rw [htype, isWhole_of_list (by simp)] at hwhole
    exact absurd hwhole (by simp)

/-! ### What a page shows of a column

A payload has an entry for each wanted column, and what stands there is the column's cells on this
page, cleaned, as text or not.  All of `read` that matters for paging is in `read_lookup`.
-/

/-- A column's entry, among those of columns with names of their own. -/
theorem lookup_column {l : List Column} {β : Type} (f : Column → β)
    (hnames : (l.map (·.name)).Nodup) (hc : c ∈ l) :
    (l.map fun c => (c.name, f c)).lookup c.name = some (f c) := by
  induction l with
  | nil => exact absurd hc List.not_mem_nil
  | cons first l ih =>
      obtain ⟨hfirst, hrest⟩ := List.nodup_cons.mp hnames
      rw [List.map_cons, List.lookup_cons]
      rcases List.mem_cons.mp hc with rfl | hc
      · rw [beq_self_eq_true]
      · have hne : c.name ≠ first.name := by
          intro heq
          exact hfirst (List.mem_map.mpr ⟨c, hc, heq⟩)
        rw [beq_eq_false_iff_ne.mpr hne]
        exact ih hrest hc

/-- A column is turned into text where one of its cells is too big. -/
theorem mem_stringifyColumns (hc : c ∈ table.columns) :
    c.name ∈ stringifyColumns table ↔ c.isBig = true := by
  unfold stringifyColumns
  constructor
  · intro h
    obtain ⟨other, hother, hname⟩ := List.mem_map.mp h
    obtain ⟨hmem, hbig⟩ := List.mem_filter.mp hother
    rwa [List.inj_on_of_nodup_map table.names hmem hc hname] at hbig
  · intro h
    exact List.mem_map.mpr ⟨c, List.mem_filter.mpr ⟨hc, h⟩, rfl⟩

/-- The cells of a page, in the form that the page calls for. -/
def pageShown (n : Nat) (c : Column) (p : Int × Int) : List Cell :=
  (pageCells n c p).map (c.type.clean (c.type.isWhole && (pageCells n c p).any tooBig))

/-- The wanted columns, among all. -/
def Table.wanted (table : Table) (columns : List String) : List Column :=
  table.columns.filter fun c => columns.isEmpty || c.name ∈ columns

theorem mem_wanted : c ∈ table.wanted columns ↔ c ∈ table.columns ∧ Wanted columns c := by
  unfold Table.wanted Wanted
  rw [List.mem_filter, Bool.or_eq_true, List.isEmpty_iff, decide_eq_true_eq]

/-- A payload holds what its page shows of each wanted column. -/
theorem read_data (table : Table) (columns : List String) (p : Int × Int) :
    (read table p.1 p.2 columns).data =
      (table.wanted columns).map fun c => (c.name, pageShown table.numRows c p) := by
  set slice := fun c : Column => c.slice (clampOffset table.numRows p.1) (clampLimit p.2) with hslice
  set page := table.slice (clampOffset table.numRows p.1) (clampLimit p.2)
  have hfilter : (page.columns.filter fun c => columns.isEmpty || c.name ∈ columns) =
      (table.wanted columns).map slice := List.filter_map
  show (page.columns.filter fun c => columns.isEmpty || c.name ∈ columns).map (fun c =>
    (c.name, c.cells.map (c.type.clean (c.name ∈ stringifyColumns page)))) = _
  rw [hfilter, List.map_map]
  refine List.map_congr_left fun c hc => ?_
  have hmem : slice c ∈ page.columns := List.mem_map.mpr ⟨c, (mem_wanted.mp hc).1, rfl⟩
  have hbig : decide ((slice c).name ∈ stringifyColumns page) = (slice c).isBig := by
    rw [Bool.eq_iff_iff, decide_eq_true_eq]
    exact mem_stringifyColumns hmem
  show (_, (slice c).cells.map ((slice c).type.clean (decide (_ ∈ stringifyColumns page)))) = _
  rw [hbig]
  rfl

theorem read_lookup (hc : c ∈ table.columns) (hwanted : Wanted columns c) (p : Int × Int) :
    (read table p.1 p.2 columns).data.lookup c.name = some (pageShown table.numRows c p) := by
  rw [read_data]
  have hnames : ((table.wanted columns).map (·.name)).Nodup :=
    table.names.sublist (List.filter_sublist.map _)
  exact lookup_column _ hnames (mem_wanted.mpr ⟨hc, hwanted⟩)

/-- What the pages show of a column, one page after the other. -/
theorem shownCells_eq (hc : c ∈ table.columns) (hwanted : Wanted columns c) :
    shownCells table columns pages c.name = pages.flatMap (pageShown table.numRows c) := by
  unfold shownCells
  refine congrArg (pages.flatMap ·) (funext fun p => ?_)
  rw [read_lookup hc hwanted p]
  rfl

/-! ### The pages, one after the other

Whether a page shows a column as the whole column would be shown can be told from that page and one
bit about the rest.  The pages together then agree with the whole just where each of them does,
since they cut the column into pieces of known lengths.
-/

/-- The pages start inside the table. -/
theorem Covers.le {n start : Nat} (h : Covers n start pages) : start ≤ n := by
  induction h with
  | done => exact Nat.le_refl n
  | page start limit rest _ ih => omega

/-- The pages hold each row once, in order. -/
theorem covers_flatMap {n start : Nat} (h : Covers n start pages) (hlength : c.cells.length = n) :
    pages.flatMap (pageCells n c) = c.cells.drop start := by
  induction h with
  | done => rw [List.flatMap_nil, ← hlength, List.drop_length]
  | page start limit rest hrest ih =>
      have hstart : start ≤ n := by
        have := hrest.le
        omega
      have hoffset : clampOffset n (start : Int) = start := by
        unfold clampOffset
        omega
      rw [List.flatMap_cons, ih, pageCells, hoffset]
      have hskip : c.cells.drop (start + min (clampLimit limit) (n - start)) =
          (c.cells.drop start).drop (clampLimit limit) := by
        rw [List.drop_drop]
        rcases Nat.le_total (clampLimit limit) (n - start) with hle | hle
        · rw [Nat.min_eq_left hle]
        · rw [Nat.min_eq_right hle, List.drop_of_length_le (by omega),
            List.drop_of_length_le (by omega)]
      rw [hskip, List.take_append_drop]

/-- Pieces of the same lengths make the same whole only one by one. -/
theorem flatMap_eq_iff {α β : Type} {l : List α} {f g : α → List β}
    (hlength : ∀ a ∈ l, (f a).length = (g a).length) :
    l.flatMap f = l.flatMap g ↔ ∀ a ∈ l, f a = g a := by
  induction l with
  | nil => exact ⟨fun _ a ha => absurd ha List.not_mem_nil, fun _ => rfl⟩
  | cons first l ih =>
      have hfirst := hlength first (List.mem_cons_self)
      have hrest := ih fun a ha => hlength a (List.mem_cons_of_mem _ ha)
      rw [List.flatMap_cons, List.flatMap_cons, List.forall_mem_cons, ← hrest]
      constructor
      · intro h
        exact List.append_inj h hfirst
      · intro h
        rw [h.1, h.2]

/-- A whole number as text is no number. -/
theorem stringify_int (n : Int) :
    stringify (.scalar (.int n)) ≠ .scalar (cleanScalar (.int n)) := by
  intro h
  simp [stringify, cleanScalar] at h

/-- Only nulls look the same as numbers and as text. -/
theorem clean_whole (hwhole : c.type.isWhole = true) {cells : List Cell} (hcells : cells ⊆ c.cells) :
    cells.map (c.type.clean false) = cells.map (c.type.clean true) ↔
      ∀ cell ∈ cells, cell = .scalar .null := by
  have hkind : c.type.kind ≠ .array := by
    rcases htype : c.type with t | _ | _
    · exact kind_of_scalar t
    · rw [htype, isWhole_of_list (by simp)] at hwhole
      exact absurd hwhole (by simp)
    · rw [htype, isWhole_of_list (by simp)] at hwhole
      exact absurd hwhole (by simp)
  rw [List.map_inj_left]
  refine forall₂_congr fun cell hcell => ?_
  unfold ColumnType.clean
  rw [if_neg hkind, if_neg hkind, if_neg (by simp), if_pos rfl]
  rcases whole_cell hwhole (hcells hcell) with rfl | ⟨n, rfl⟩
  · exact ⟨fun _ => rfl, fun _ => rfl⟩
  · constructor
    · intro h
      exact absurd h.symm (stringify_int n)
    · intro h
      cases h

/-- What is on a page is in the column. -/
theorem pageCells_subset (n : Nat) (p : Int × Int) : pageCells n c p ⊆ c.cells :=
  fun _ h => List.mem_of_mem_drop (List.mem_of_mem_take h)

/-- A page shows a column as the whole of it is shown, unless the page has numbers of a column
with a number too big and not one such itself. -/
theorem pageShown_eq_iff (n : Nat) (c : Column) (p : Int × Int) :
    pageShown n c p = (pageCells n c p).map (c.type.clean c.isBig) ↔
      ¬(c.isBig = true ∧ (∃ cell ∈ pageCells n c p, cell ≠ .scalar .null) ∧
        ∀ cell ∈ pageCells n c p, tooBig cell = false) := by
  unfold pageShown
  by_cases hbig : c.isBig = true
  · have hwhole : c.type.isWhole = true := (Bool.and_eq_true_iff.mp hbig).1
    rw [hbig, hwhole, Bool.true_and]
    cases hany : (pageCells n c p).any tooBig with
    | true =>
        obtain ⟨cell, hcell, htoo⟩ := List.any_eq_true.mp hany
        refine ⟨fun _ h => ?_, fun _ => rfl⟩
        rw [h.2.2 cell hcell] at htoo
        exact absurd htoo (by simp)
    | false =>
        rw [clean_whole hwhole (pageCells_subset n p)]
        constructor
        · intro hnull h
          obtain ⟨cell, hcell, hne⟩ := h.2.1
          exact hne (hnull cell hcell)
        · intro h cell hcell
          by_contra hne
          refine h ⟨rfl, ⟨cell, hcell, hne⟩, fun other hother => ?_⟩
          exact Bool.not_eq_true _ ▸ List.any_eq_false.mp hany other hother
  · refine ⟨fun _ h => hbig h.1, fun _ => ?_⟩
    have hpage : (c.type.isWhole && (pageCells n c p).any tooBig) = c.isBig := by
      rw [Bool.not_eq_true] at hbig
      rw [hbig, Bool.eq_false_iff]
      intro h
      obtain ⟨hwhole, hany⟩ := Bool.and_eq_true_iff.mp h
      obtain ⟨cell, hcell, htoo⟩ := List.any_eq_true.mp hany
      refine absurd ?_ (Bool.eq_false_iff.mp hbig)
      exact Bool.and_eq_true_iff.mpr
        ⟨hwhole, List.any_eq_true.mpr ⟨cell, pageCells_subset n p hcell, htoo⟩⟩
    rw [hpage]

/-- **Paging is lossless and uniform just where no column is divided.** -/
theorem paging_seamless (hcovers : Covers table.numRows 0 pages) :
    Seamless table columns pages ↔ ¬Divided table columns pages := by
  have hcolumn : ∀ c ∈ table.columns, Wanted columns c →
      (shownCells table columns pages c.name = c.cells.map (c.type.clean c.isBig) ↔
        ∀ p ∈ pages, pageShown table.numRows c p =
          (pageCells table.numRows c p).map (c.type.clean c.isBig)) := by
    intro c hc hwanted
    have hcells := covers_flatMap hcovers (table.rows c hc)
    rw [List.drop_zero] at hcells
    rw [shownCells_eq hc hwanted, ← flatMap_eq_iff fun p _ => ?_, ← List.map_flatMap, hcells]
    rw [pageShown, List.length_map, List.length_map]
  constructor
  · intro h hdivided
    obtain ⟨c, hc, hwanted, hbig, p, hp, hpage⟩ := hdivided
    exact (pageShown_eq_iff table.numRows c p).mp ((hcolumn c hc hwanted).mp (h c hc hwanted) p hp)
      ⟨hbig, hpage⟩
  · intro h c hc hwanted
    refine (hcolumn c hc hwanted).mpr fun p hp => (pageShown_eq_iff table.numRows c p).mpr ?_
    intro hbad
    exact h ⟨c, hc, hwanted, hbad.1, p, hp, hbad.2⟩

/-- Two numbers of 64 bits. -/
theorem admits_pair {m n : Int} (hm : (ColumnType.scalar (.int .w64)).Admits (.scalar (.int m)))
    (hn : (ColumnType.scalar (.int .w64)).Admits (.scalar (.int n))) :
    ∀ cell ∈ [Cell.scalar (.int m), .scalar (.int n)],
      (ColumnType.scalar (.int .w64)).Admits cell := by
  intro cell hcell
  rcases List.mem_pair.mp hcell with rfl | rfl
  · exact hm
  · exact hn

/-- Ids that are too big in every row. -/
def bigIds : Column where
  name := "donut_id"
  type := .scalar (.int .w64)
  cells := [.scalar (.int (2 ^ 53)), .scalar (.int (2 ^ 53 + 2))]
  typed := admits_pair ⟨by decide, by decide⟩ ⟨by decide, by decide⟩

/-- The visit is in every row, and small. -/
def visits : Column where
  name := "visit"
  type := .scalar (.int .w64)
  cells := [.scalar (.int 7), .scalar (.int 7)]
  typed := admits_pair ⟨by decide, by decide⟩ ⟨by decide, by decide⟩

/-- A table of these two columns. -/
def visitTable : Table where
  columns := [visits, bigIds]
  numRows := 2
  rows := by
    intro c hc
    rcases List.mem_pair.mp hc with rfl | rfl
    · rfl
    · rfl
  names := by decide

/-- Two pages of a row each: the ids are text on both, and the visit is a number on both. -/
theorem paging_seamless_two_pages : Seamless visitTable [] [(0, 1), (1, 1)] := by
  refine (paging_seamless (.page 0 1 _ (.page 1 1 _ .done))).mpr ?_
  rintro ⟨c, hc, -, hbig, p, hp, -, hsmall⟩
  rcases List.mem_pair.mp hc with rfl | rfl
  · exact absurd hbig (by decide)
  · rcases List.mem_pair.mp hp with rfl | rfl
    · exact absurd (hsmall (.scalar (.int (2 ^ 53))) (by decide)) (by decide)
    · exact absurd (hsmall (.scalar (.int (2 ^ 53 + 2))) (by decide)) (by decide)

/-- Donuts of two blocks, the ids of the second too big. -/
def donutIds : Column where
  name := "donut_id"
  type := .scalar (.int .w64)
  cells := [.scalar (.int 1), .scalar (.int (2 ^ 53))]
  typed := admits_pair ⟨by decide, by decide⟩ ⟨by decide, by decide⟩

/-- A table of this column. -/
def donutTable : Table where
  columns := [donutIds]
  numRows := 2
  rows := by
    intro c hc
    rw [List.mem_singleton.mp hc]
    rfl
  names := List.nodup_singleton _

/-- On pages of one row the first id is a number and the second is text. -/
theorem pages_disagree :
    Covers donutTable.numRows 0 [(0, 1), (1, 1)] ∧ ¬Seamless donutTable [] [(0, 1), (1, 1)] := by
  refine ⟨.page 0 1 _ (.page 1 1 _ .done), fun h => ?_⟩
  have hmem : donutIds ∈ donutTable.columns := List.mem_cons_self
  have hshown := h donutIds hmem (Or.inl rfl)
  rw [shownCells_eq hmem (Or.inl rfl)] at hshown
  have hfirst : some (Cell.scalar (.int 1)) = some (.scalar (.text (toString (1 : Int)))) :=
    congrArg List.head? hshown
  cases hfirst

end DonutServer.Dashboard
