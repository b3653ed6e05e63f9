import InsertLayout.Statement.Basic
import Mathlib.Algebra.Ring.Nat
import Mathlib.Data.List.Forall2
import Mathlib.Order.Bounds.Basic

/-!
# Alignment

Each column is as wide as its widest entry (`isGreatest_columnWidths`), and each cell in it is
padded to that width, at one end, with spaces (`headerCells`, `rowCells`). Cells of the same widths
stand in the same columns (`Fill.inColumns`): the text in front of a cell is as wide in every line
that has one there. So a rendering is aligned, whatever the statement (`render_aligned`).
-/

set_option autoImplicit false

namespace InsertLayout

open Text

namespace Statement

/-! ## Widths of columns -/

/-- The entries of a column: its name, and the field at its index in each row that has one. -/
def entries (s : Statement) (i : Nat) : List Text :=
  s.columns[i]?.toList ++ s.rows.filterMap (·[i]?)

theorem getElem?_widen (widths : List Nat) (row : List Text) (i : Nat) :
    (widen widths row)[i]? =
      widths[i]?.map fun width => max width ((row[i]?.map Text.width).getD 0) := by
  fun_induction widen widths row generalizing i with
  | case1 row => rfl
  | case2 widths => simp
  | case3 width widths field row ih =>
    cases i with
    | zero => simp
    | succ i => simpa using ih i

theorem isGreatest_max_cons {a b n : Nat} {ns : List Nat}
    (h : IsGreatest {k | k ∈ max a b :: ns} n) : IsGreatest {k | k ∈ a :: b :: ns} n := by
  obtain ⟨hmem, hbound⟩ := h
  have hmax : max a b ≤ n := hbound List.mem_cons_self
  refine ⟨?_, fun k hk => ?_⟩
  · rcases List.mem_cons.1 hmem with rfl | hmem
    · rcases Nat.le_total a b with h | h
      · rw [Nat.max_eq_right h]
        exact List.mem_cons_of_mem _ List.mem_cons_self
      · rw [Nat.max_eq_left h]
        exact List.mem_cons_self
    · exact List.mem_cons_of_mem _ (List.mem_cons_of_mem _ hmem)
  · rcases List.mem_cons.1 hk with rfl | hk
    · omega
    · rcases List.mem_cons.1 hk with rfl | hk
      · omega
      · exact hbound (List.mem_cons_of_mem _ hk)

/-- The columns are widened to the widest fields of the rows. -/
theorem isGreatest_foldl_widen {rows : List (List Text)} {widths : List Nat} {i first last : Nat}
    (hfirst : widths[i]? = some first) (hlast : (rows.foldl widen widths)[i]? = some last) :
    IsGreatest {n | n ∈ first :: (rows.filterMap (·[i]?)).map Text.width} last := by
  induction rows generalizing widths first with
  | nil =>
    obtain rfl := Option.some.inj (hfirst.symm.trans hlast)
    simp
  | cons row rows ih =>
    rw [List.foldl_cons] at hlast
    have hnext := getElem?_widen widths row i
    rw [hfirst, Option.map_some] at hnext
    have hrest := ih hnext hlast
    cases hfield : row[i]? with
    | none =>
      rw [hfield] at hrest
      simpa [hfield] using hrest
    | some field =>
      rw [hfield] at hrest
      have hfields : (row :: rows).filterMap (·[i]?) = field :: rows.filterMap (·[i]?) :=
        List.filterMap_cons_some hfield
      rw [hfields, List.map_cons]
      exact isGreatest_max_cons hrest

/-- A column is as wide as its widest entry. -/
theorem isGreatest_columnWidths {s : Statement} {i width : Nat}
    (h : s.columnWidths[i]? = some width) :
    IsGreatest {n | n ∈ (s.entries i).map Text.width} width := by
  obtain ⟨hi, -⟩ := List.getElem?_eq_some_iff.1 h
  rw [length_columnWidths] at hi
  have hname := List.getElem?_eq_getElem hi
  have hfirst : (s.columns.map Text.width)[i]? = some (s.columns[i]).width := by
    rw [List.getElem?_map, hname, Option.map_some]
  unfold entries
  rw [hname]
  exact isGreatest_foldl_widen hfirst h

/-- No entry of a column is wider than the column. -/
theorem width_le_of_mem_entries {s : Statement} {i width : Nat}
    (h : s.columnWidths[i]? = some width) {entry : Text} (hentry : entry ∈ s.entries i) :
    entry.width ≤ width :=
  (isGreatest_columnWidths h).2 (List.mem_map_of_mem hentry)

/-! ## Cells of a line -/

/-- The text in front of a cell, from the parenthesis on that opens its line. -/
def beforeCell (cells : List Text) (i : Nat) : Text :=
  '(' :: (cells.take i).flatMap (· ++ [',', ' '])

/-- How far a column is from the start of a line: a parenthesis, and the columns before it with what
separates them. -/
def indent (widths : List Nat) (i : Nat) : Nat := 1 + ((widths.take i).map (· + 2)).sum

/-- Each cell that belongs to a column is as wide as the column. -/
def Fill (widths : List Nat) (cells : List Text) : Prop :=
  ∀ (i width : Nat) (cell : Text), widths[i]? = some width → cells[i]? = some cell →
    cell.width = width

/-- Each cell of a line that belongs to a column is as wide as the column and stands as far from the
start of the line. -/
def InColumns (widths : List Nat) (cells : List Text) : Prop :=
  ∀ (i width : Nat) (cell : Text), widths[i]? = some width → cells[i]? = some cell →
    cell.width = width ∧ (beforeCell cells i).width = indent widths i ∧
      ∃ rest, renderCells cells = beforeCell cells i ++ cell ++ rest

theorem exists_intercalate_eq {cells : List Text} {i : Nat} {cell : Text}
    (h : cells[i]? = some cell) : ∃ rest, List.intercalate [',', ' '] cells =
      (cells.take i).flatMap (· ++ [',', ' ']) ++ cell ++ rest := by
  induction cells generalizing i with
  | nil => cases h
  | cons first cells ih =>
    cases i with
    | zero =>
      obtain rfl := Option.some.inj h
      cases cells with
      | nil => exact ⟨[], by simp⟩
      | cons next cells => exact ⟨_, by rw [List.intercalate_cons_cons, List.append_assoc]; rfl⟩
    | succ i =>
      cases cells with
      | nil => cases h
      | cons next cells =>
        obtain ⟨rest, hrest⟩ := ih h
        refine ⟨rest, ?_⟩
        rw [List.intercalate_cons_cons, hrest, List.take_succ_cons, List.flatMap_cons]
        simp only [List.append_assoc]

theorem Fill.width_flatMap_take {widths : List Nat} {cells : List Text} (hcells : Fill widths cells)
    {i : Nat} (hwidths : i < widths.length) (hi : i < cells.length) :
    Text.width ((cells.take i).flatMap (· ++ [',', ' '])) = ((widths.take i).map (· + 2)).sum := by
  have hseparator : Text.width [',', ' '] = 2 := by decide
  induction i generalizing widths cells with
  | zero => rfl
  | succ i ih =>
    obtain ⟨width, widths, rfl⟩ := List.exists_cons_of_length_pos (Nat.zero_lt_of_lt hwidths)
    obtain ⟨cell, cells, rfl⟩ := List.exists_cons_of_length_pos (Nat.zero_lt_of_lt hi)
    have hfirst : cell.width = width := hcells 0 width cell rfl rfl
    have hrest := ih (fun j => hcells (j + 1)) (Nat.lt_of_succ_lt_succ hwidths)
      (Nat.lt_of_succ_lt_succ hi)
    rw [List.take_succ_cons, List.take_succ_cons, List.flatMap_cons, List.map_cons, List.sum_cons,
      width_append, width_append, hseparator, hfirst, hrest]

/-- Cells as wide as their columns stand in these. -/
theorem Fill.inColumns {widths : List Nat} {cells : List Text} (hcells : Fill widths cells) :
    InColumns widths cells := by
  intro i width cell hwidth hcell
  obtain ⟨hi, -⟩ := List.getElem?_eq_some_iff.1 hwidth
  obtain ⟨hi', -⟩ := List.getElem?_eq_some_iff.1 hcell
  have hopen : charWidth '(' = 1 := by decide
  refine ⟨hcells i width cell hwidth hcell, ?_, ?_⟩
  · rw [beforeCell, width_cons, hcells.width_flatMap_take hi hi', hopen, indent]
  · obtain ⟨rest, hrest⟩ := exists_intercalate_eq hcell
    refine ⟨rest ++ [')'], ?_⟩
    rw [renderCells, beforeCell, hrest]
    simp only [List.cons_append, List.append_assoc]

/-! ## Lines of a rendering -/

/-- The cells of the header: the names of the columns, padded on the right. -/
structure HeaderCells (widths : List Nat) (columns cells : List Text) : Prop where
  length : cells.length = columns.length
  inColumns : InColumns widths cells
  padded : ∀ (i : Nat) (name : Text), columns[i]? = some name →
    ∃ n, cells[i]? = some (name ++ spaces n)

/-- The cells of a row: its fields, padded on the right if there is a quote in them and on the left
otherwise; those behind the last column are not padded. -/
structure RowCells (quotes : QuoteSet) (widths : List Nat) (row cells : List Text) : Prop where
  length : cells.length = row.length
  inColumns : InColumns widths cells
  padded : ∀ (i : Nat) (field : Text), i < widths.length → row[i]? = some field → ∃ n, cells[i]? =
    some (if quotes.occursIn field then field ++ spaces n else spaces n ++ field)
  beyond : ∀ i : Nat, widths.length ≤ i → cells[i]? = row[i]?

theorem width_alignField (quotes : QuoteSet) (width : Nat) (field : Text) :
    (alignField quotes width field).width = max field.width width := by
  unfold alignField
  split
  · exact width_padRight field width
  · exact width_padLeft field width

theorem getElem?_alignRow (quotes : QuoteSet) (widths : List Nat) (row : List Text) (i : Nat) :
    (alignRow quotes widths row)[i]? = row[i]?.map fun field =>
      widths[i]?.elim field fun width => alignField quotes width field := by
  fun_induction alignRow quotes widths row generalizing i with
  | case1 row => simp
  | case2 widths => rfl
  | case3 width widths field row ih =>
    cases i with
    | zero => simp
    | succ i => simpa using ih i

theorem headerCells (s : Statement) : HeaderCells s.columnWidths s.columns
    (List.zipWith Text.padRight s.columns s.columnWidths) where
  length := by simp
  inColumns := by
    refine Fill.inColumns fun i width cell hwidth hcell => ?_
    obtain ⟨name, width', hname, hwidth', rfl⟩ := List.getElem?_zipWith_eq_some.1 hcell
    obtain rfl := Option.some.inj (hwidth.symm.trans hwidth')
    have hentry : name ∈ s.entries i := by simp [entries, hname]
    have hle := width_le_of_mem_entries hwidth hentry
    rw [width_padRight]
    omega
  padded i name hname := by
    obtain ⟨hi, -⟩ := List.getElem?_eq_some_iff.1 hname
    have hwidth : i < s.columnWidths.length := by rwa [length_columnWidths]
    refine ⟨_, List.getElem?_zipWith_eq_some.2
      ⟨name, s.columnWidths[i], hname, List.getElem?_eq_getElem hwidth, rfl⟩⟩

theorem rowCells {s : Statement} {row : List Text} (hrow : row ∈ s.rows) :
    RowCells s.quotes s.columnWidths row (alignRow s.quotes s.columnWidths row) where
  length := length_alignRow _ _ _
  inColumns := by
    refine Fill.inColumns fun i width cell hwidth hcell => ?_
    rw [getElem?_alignRow, hwidth] at hcell
    obtain ⟨field, hfield, rfl⟩ := Option.map_eq_some_iff.1 hcell
    have hentry : field ∈ s.entries i :=
      List.mem_append_right _ (List.mem_filterMap.2 ⟨row, hrow, hfield⟩)
    have hle := width_le_of_mem_entries hwidth hentry
    rw [Option.elim_some, width_alignField]
    omega
  padded i field hi hfield := by
    rw [getElem?_alignRow, hfield, List.getElem?_eq_getElem hi]
    refine ⟨s.columnWidths[i] - field.width, ?_⟩
    rw [Option.map_some, Option.elim_some]
    unfold alignField
    split <;> rfl
  beyond i hi := by
    rw [getElem?_alignRow, List.getElem?_eq_none hi]
    simp

/-- Each column is as wide as its widest entry, and in the rendering every cell of a column is as
wide as the column and as far from the start of its line as all others. A cell is the name or the
field with spaces at one end, and a row keeps its fields. -/
theorem render_aligned (s : Statement) :
    s.columnWidths.length = s.columns.length ∧
    (∀ i width : Nat, s.columnWidths[i]? = some width →
      IsGreatest {n | n ∈ (s.entries i).map Text.width} width) ∧
    ∃ header rows,
      s.render = s.clause ++ '\n' :: renderCells header ++ '\n' :: s.keyword ++
        (if rows = [] then [] else
          '\n' :: List.intercalate [',', '\n'] (rows.map renderCells) ++ [';']) ∧
      HeaderCells s.columnWidths s.columns header ∧
      List.Forall₂ (RowCells s.quotes s.columnWidths) s.rows rows := by
  refine ⟨length_columnWidths s, fun i width => isGreatest_columnWidths, _,
    s.rows.map (alignRow s.quotes s.columnWidths), ?_, headerCells s, ?_⟩
  · unfold render renderHeader renderRows
    cases s.rows with
    | nil => rfl
    | cons row rows => simp [Function.comp_def]
  · rw [List.forall₂_map_right_iff, List.forall₂_same]
    intro row hrow
    exact rowCells hrow

/-- A wide name, a short row, and a row with a literal and with one field more than columns. -/
example : render ⟨"i".toList, ["漢字".toList, "b".toList], "VALUES".toList,
      [["1".toList], ["'x'".toList, "22".toList, "333".toList]], .standard⟩ =
    "i\n(漢字, b )\nVALUES\n(   1),\n('x' , 22, 333);".toList := by
  decide +kernel

end Statement

end InsertLayout
