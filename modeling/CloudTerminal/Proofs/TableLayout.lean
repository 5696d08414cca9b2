import Mathlib.Data.List.Forall2
import CloudTerminal.Proofs.TableReading

/-!
Where the cells of a table stand. A column is as wide as its longest cell and begins behind the columns before
it, each with a gap of two spaces after it (`columnWidth`, `columnPlace`). The widths that are computed row by
row are these, and they reach as far as the longest row (`column_has_its_width`), so that every cell of every
row stands at the place of its column (`joined_from_a_cell`). Only blanks are taken off the ends of lines, so
that a cell with anything to see is still found there (`tables_are_aligned`).
-/

namespace CloudTerminal.Text

/-- The cells of a table as characters, the headers first. -/
def tableOf (headers : List String) (rows : List (List String)) : List (List (List Char)) :=
  (headers :: rows).map (List.map String.toList)

/-- The cells of a column, from the rows that are long enough to have one. -/
def columnCells (table : List (List (List Char))) (column : Nat) : List (List Char) :=
  table.filterMap (·[column]?)

/-- The length of the longest cell of a column. -/
def columnWidth (table : List (List (List Char))) (column : Nat) : Nat :=
  ((columnCells table column).map List.length).foldr max 0

/-- How many characters stand in a line before a column. -/
def columnPlace (table : List (List (List Char))) : Nat → Nat
  | 0 => 0
  | column + 1 => columnPlace table column + columnWidth table column + 2

/-- The line that shows a row, up to the last cell's padding. -/
structure LaidOut (table : List (List (List Char))) (row : List (List Char)) (line : List Char) : Prop where
  cells : ∀ column cell, row[column]? = some cell →
    cell ++ List.replicate (columnWidth table column - cell.length) ' ' <+: line.drop (columnPlace table column)
  gaps : ∀ column, column + 1 < row.length →
    [' ', ' '] <+: line.drop (columnPlace table column + columnWidth table column)
  length : line.length = columnPlace table row.length - 2

/-- What is said of the line of every row of a table. There is a width for each of its cells, it is the row
laid out without the blanks at its end, and a cell that is not blank begins at the place of its column. -/
structure Aligned (table : List (List (List Char))) (row : List (List Char)) (line : List Char) : Prop where
  widths : ∀ column < row.length, (columnWidths table)[column]? = some (columnWidth table column)
  trimmed : ∃ trailing, LaidOut table row (line ++ trailing) ∧ (∀ c ∈ trailing, isBlank c = true) ∧
    ∀ c ∈ line.getLast?, isBlank c = false
  starts : ∀ column cell, row[column]? = some cell → (∃ c ∈ cell, isBlank c = false) →
    trimEnd isBlank cell <+: line.drop (columnPlace table column)

variable {table : List (List (List Char))} {row : List (List Char)} {cell : List Char} {column : Nat}

/-- A column is as wide as its widest cell, among those of one row and those of the rest. -/
theorem width_with_one_more_row (row : List (List Char)) (table : List (List (List Char))) (column : Nat) :
    columnWidth (row :: table) column = max ((row[column]?.map List.length).getD 0)
      (columnWidth table column) := by
  cases held : row[column]? with
  | none => simp [columnWidth, columnCells, held]
  | some cell => simp [columnWidth, columnCells, held]

theorem widened_to_the_row (widths : List Nat) (row : List (List Char)) (column : Nat) :
    (widen widths row)[column]?.getD 0 = max (widths[column]?.getD 0) ((row[column]?.map List.length).getD 0) := by
  fun_induction widen widths row generalizing column with
  | case1 widths => simp
  | case2 cell cells ih =>
    cases column with
    | zero => simp
    | succ column => simpa using ih column
  | case3 width widths cell cells ih =>
    cases column with
    | zero => simp
    | succ column => simpa using ih column

/-- The widths that are found by going through the rows are those of the columns, whatever they were
before. -/
theorem widened_to_all_rows (widths : List Nat) (rows : List (List (List Char))) (column : Nat) :
    (rows.foldl widen widths)[column]?.getD 0 = max (widths[column]?.getD 0) (columnWidth rows column) := by
  induction rows generalizing widths with
  | nil => simp [columnWidth, columnCells]
  | cons row rest ih => rw [List.foldl_cons, ih, widened_to_the_row, width_with_one_more_row, max_assoc]

/-- The widths go as far as the longest row, and each is that of its column. -/
theorem column_has_its_width (member : row ∈ table) (inside : column < row.length) :
    (columnWidths table)[column]? = some (columnWidth table column) := by
  have reached : column < (columnWidths table).length :=
    Nat.lt_of_lt_of_le inside ((every_cell_has_a_column [] table).2 row member)
  have width := widened_to_all_rows [] table column
  rw [← columnWidths, List.getElem?_eq_getElem reached] at width
  rw [List.getElem?_eq_getElem reached]
  simpa using width

theorem cell_fits_its_column (member : row ∈ table) (held : row[column]? = some cell) :
    cell.length ≤ columnWidth table column := by
  induction table with
  | nil => cases member
  | cons first rest ih =>
    rw [width_with_one_more_row]
    rcases List.mem_cons.mp member with rfl | later
    · rw [held]
      exact Nat.le_max_left _ _
    · exact Nat.le_trans (ih later) (Nat.le_max_right _ _)

theorem joined_from_a_piece {α : Type} (separator : List α) (piece : List α) (back : List (List α)) :
    separator.intercalate (piece :: back) = piece ++ back.flatMap (separator ++ ·) := by
  induction back generalizing piece with
  | nil => simp
  | cons next back ih =>
    rw [List.intercalate_cons_cons, ih, List.flatMap_cons]
    simp

theorem joined_around_a_piece {α : Type} (separator : List α) (front : List (List α)) (piece : List α)
    (back : List (List α)) : separator.intercalate (front ++ piece :: back) =
      front.flatMap (· ++ separator) ++ (piece ++ back.flatMap (separator ++ ·)) := by
  induction front with
  | nil => exact joined_from_a_piece separator piece back
  | cons first front ih =>
    obtain ⟨next, others, more⟩ := List.exists_cons_of_ne_nil (List.append_ne_nil_of_right_ne_nil front
      (List.cons_ne_nil piece back))
    rw [List.cons_append, more, List.intercalate_cons_cons, ← more, ih]
    simp

theorem length_padTo {width : Nat} (fits : cell.length ≤ width) : (padTo width cell).length = width := by
  simp only [padTo, List.length_append, List.length_replicate]
  omega

section Row

variable (member : row ∈ table)

include member

theorem length_of_padded_row : (List.zipWith padTo (columnWidths table) row).length = row.length := by
  have covered := (every_cell_has_a_column [] table).2 row member
  rw [List.length_zipWith]
  exact min_eq_right covered

theorem padded_cell (held : row[column]? = some cell) :
    (List.zipWith padTo (columnWidths table) row)[column]? = some (padTo (columnWidth table column) cell) := by
  have inside : column < row.length := (List.getElem?_eq_some_iff.mp held).1
  rw [List.getElem?_zipWith, column_has_its_width member inside, held]

/-- What stands before a column in a line is as long as the columns before it and the gaps between them. -/
theorem length_before_a_column (within : column ≤ row.length) :
    (((List.zipWith padTo (columnWidths table) row).take column).flatMap (· ++ columnGap)).length =
      columnPlace table column := by
  induction column with
  | zero => rfl
  | succ column ih =>
    have held : row[column]? = some row[column] := List.getElem?_eq_getElem within
    rw [List.take_add_one, padded_cell member held, List.flatMap_append, List.length_append,
      ih (Nat.le_of_lt within)]
    simp [length_padTo (cell_fits_its_column member held), columnGap, columnPlace, Nat.add_assoc]

/-- A line goes on with the cell from the place of its column on, and with a gap and the next cell behind it. -/
theorem joined_from_a_cell (held : row[column]? = some cell) :
    ∃ before, before.length = columnPlace table column ∧
      columnGap.intercalate (List.zipWith padTo (columnWidths table) row) =
        before ++ (padTo (columnWidth table column) cell ++
          ((List.zipWith padTo (columnWidths table) row).drop (column + 1)).flatMap (columnGap ++ ·)) := by
  have inside : column < row.length := (List.getElem?_eq_some_iff.mp held).1
  obtain ⟨reached, padded⟩ := List.getElem?_eq_some_iff.mp (padded_cell member held)
  refine ⟨_, length_before_a_column member (Nat.le_of_lt inside), ?_⟩
  rw [← joined_around_a_piece, ← padded, List.getElem_cons_drop, List.take_append_drop]

/-- A line that is joined from the filled cells has every cell at the place of its column. -/
theorem row_is_laid_out :
    LaidOut table row (columnGap.intercalate (List.zipWith padTo (columnWidths table) row)) := by
  constructor
  case cells =>
    intro column cell held
    obtain ⟨before, place, line⟩ := joined_from_a_cell member held
    rw [line, ← place, List.drop_left]
    exact List.prefix_append _ _
  case gaps =>
    intro column more
    have held : row[column]? = some row[column] := List.getElem?_eq_getElem (Nat.lt_of_succ_lt more)
    obtain ⟨before, place, line⟩ := joined_from_a_cell member held
    have reached : column + 1 < (List.zipWith padTo (columnWidths table) row).length :=
      length_of_padded_row member ▸ more
    have width := length_padTo (cell_fits_its_column member held)
    have behind : columnPlace table column + columnWidth table column =
        (before ++ padTo (columnWidth table column) row[column]).length := by
      rw [List.length_append, place, width]
    rw [line, behind, ← List.append_assoc, List.drop_left, List.drop_eq_getElem_cons reached, List.flatMap_cons,
      List.append_assoc]
    exact List.prefix_append _ _
  case length =>
    cases last : row.length with
    | zero => simp [List.length_eq_zero_iff.mp last, columnPlace]
    | succ column =>
      have held : row[column]? = some row[column] := List.getElem?_eq_getElem (last ▸ Nat.lt_succ_self column)
      obtain ⟨before, place, line⟩ := joined_from_a_cell member held
      have width := length_padTo (cell_fits_its_column member held)
      have behind : (List.zipWith padTo (columnWidths table) row).drop (column + 1) = [] := by
        rw [List.drop_eq_nil_iff, length_of_padded_row member, last]
      rw [line, behind, List.length_append, place, List.flatMap_nil, List.append_nil, width]
      rfl

end Row

/-- Blanks that are taken off the end of a line are no part of a text in it that ends in something else. -/
theorem solid_text_is_kept {line trailing text : List Char} {place : Nat}
    (blank : ∀ c ∈ trailing, isBlank c = true)
    (filled : text ≠ []) (solid : ∀ c ∈ text.getLast?, isBlank c = false)
    (there : text <+: (line ++ trailing).drop place) : text <+: line.drop place := by
  by_cases fits : place + text.length ≤ line.length
  · rw [List.prefix_iff_eq_take] at there ⊢
    rwa [List.drop_append_of_le_length (by omega), List.take_append_of_le_length (by simp; omega)] at there
  · have positive := List.length_pos_iff.mpr filled
    have within := there.length_le
    rw [List.length_drop, List.length_append] at within
    have last : text.getLast filled = trailing[place + (text.length - 1) - line.length] := by
      rw [List.getLast_eq_getElem, there.getElem, List.getElem_drop, List.getElem_append_right (by omega)]
    have member : text.getLast filled ∈ trailing := last ▸ List.getElem_mem _
    have solid_last := solid _ (List.getLast?_eq_some_getLast filled)
    rw [blank _ member] at solid_last
    cases solid_last

/-- The line that is shown still has them there, since only blanks at its end are taken off. -/
theorem row_is_aligned (member : row ∈ table) : Aligned table row (tableLine (columnWidths table) row) := by
  have laid_out := row_is_laid_out member
  obtain ⟨trailing, cut, blank⟩ :=
    trimEnd_spec isBlank (columnGap.intercalate (List.zipWith padTo (columnWidths table) row))
  rw [cut] at laid_out
  refine ⟨fun column inside => column_has_its_width member inside,
    ⟨trailing, laid_out, blank, last_of_trimmed isBlank _⟩, fun column cell held visible => ?_⟩
  have filled : trimEnd isBlank cell ≠ [] := by
    intro nothing
    obtain ⟨c, inside, solid⟩ := visible
    obtain ⟨blanks, only, blank⟩ := trimEnd_spec isBlank cell
    rw [nothing, List.nil_append] at only
    rw [only] at inside
    rw [blank c inside] at solid
    cases solid
  have padded := (List.prefix_append cell _).trans (laid_out.cells column cell held)
  exact solid_text_is_kept blank filled (last_of_trimmed isBlank cell)
    ((text_begins_with_trimmed isBlank cell).trans padded)

/-- A table is the line of its headers and one line for each row, whatever their numbers of cells, and these
lines are aligned. -/
theorem tables_are_aligned (headers : List String) (rows : List (List String)) :
    ∃ lines, (renderTable headers rows).toList = ['\n'].intercalate lines ∧
      List.Forall₂ (Aligned (tableOf headers rows)) (tableOf headers rows) lines := by
  refine ⟨_, characters_of_rendered_table headers rows, ?_⟩
  exact List.forall₂_map_right_iff.mpr (List.forall₂_same.mpr fun row => row_is_aligned)

/-- Rows may be shorter or longer than the headers. -/
example : renderTable ["NAME", "UP"] [["db"], ["web-1", "", "yes"]] = "NAME   UP\ndb\nweb-1      yes" := by decide

end CloudTerminal.Text
