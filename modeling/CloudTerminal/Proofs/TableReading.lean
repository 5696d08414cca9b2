import CloudTerminal.Proofs.Words
import CloudTerminal.Text.Table

/-!
Tables read back. A reader who drops the first line of a table and cuts every other line into its words finds
the cells again, if they are words: the padding and the gaps are blanks, and what is trimmed from the ends of
lines is nothing else (`words_of_table_line`). Line feeds in the headers would make more lines of the first
one, so there must be none (`cells_of_rendered_table`).
-/

namespace CloudTerminal.Text

/-- The cells of a table that is given as text: the words of every line but the first. -/
def tableCells (text : String) : List (List String) :=
  (splitAll (· == '\n') text.toList).tail.map fun line => (words line).map String.ofList

variable {widths : List Nat} {row : List (List Char)}

theorem blank_space : isBlank ' ' = true := by decide

theorem padding_is_blank (width : Nat) (cell : List Char) :
    ∀ c ∈ List.replicate (width - cell.length) ' ', isBlank c = true := by
  intro c member
  rw [(List.mem_replicate.mp member).2]
  exact blank_space

/-- A cell is read as one word, since at least a gap of blanks stands behind it. -/
theorem word_before_a_gap {cell : List Char} (filled : cell ≠ []) (solid : ∀ c ∈ cell, isBlank c = false)
    (width : Nat) (rest : List Char) : words (padTo width cell ++ columnGap ++ rest) = cell :: words rest := by
  have cut : padTo width cell ++ columnGap ++ rest = padTo width cell ++ ' ' :: ([' '] ++ rest) := by
    simp [columnGap]
  rw [cut, words_append_blank blank_space, padTo, words_before_blanks (padding_is_blank width cell),
    words_of_solid filled solid, words_after_blanks (by simp [blank_space])]
  rfl

/-- The words of a line are its cells, as long as there is a column for each of them. -/
theorem words_of_padded_row (filled : ∀ cell ∈ row, cell ≠ [])
    (solid : ∀ cell ∈ row, ∀ c ∈ cell, isBlank c = false) (fits : row.length ≤ widths.length) :
    words (columnGap.intercalate (List.zipWith padTo widths row)) = row := by
  induction row generalizing widths with
  | nil => simp [words]
  | cons cell rest ih =>
    obtain ⟨width, widths, rfl⟩ : ∃ width others, widths = width :: others :=
      List.exists_cons_of_length_pos (Nat.lt_of_lt_of_le (Nat.succ_pos _) fits)
    have filled_here := filled cell List.mem_cons_self
    have solid_here := solid cell List.mem_cons_self
    have later : words (columnGap.intercalate (List.zipWith padTo widths rest)) = rest :=
      ih (fun other member => filled other (List.mem_cons_of_mem _ member))
        (fun other member => solid other (List.mem_cons_of_mem _ member)) (by simpa using fits)
    cases rest with
    | nil =>
      simp only [List.zipWith_cons_cons, List.zipWith_nil_right, List.intercalate_singleton, padTo]
      rw [words_before_blanks (padding_is_blank width cell), words_of_solid filled_here solid_here]
    | cons next rest =>
      obtain ⟨width', widths, rfl⟩ : ∃ width others, widths = width :: others :=
        List.exists_cons_of_length_pos (by simp at fits; omega)
      rw [List.zipWith_cons_cons] at later ⊢
      rw [List.zipWith_cons_cons, List.intercalate_cons_cons, word_before_a_gap filled_here solid_here, later]

theorem length_widen (widths : List Nat) (row : List (List Char)) :
    (widen widths row).length = max widths.length row.length := by
  fun_induction widen widths row with
  | case1 widths => simp
  | case2 cell cells ih => simp [ih]
  | case3 width widths cell cells ih => simp [ih]

/-- There are at least as many widths as cells in any row, so that no cell is cut off. -/
theorem every_cell_has_a_column (widths : List Nat) (rows : List (List (List Char))) :
    widths.length ≤ (rows.foldl widen widths).length ∧
      ∀ row ∈ rows, row.length ≤ (rows.foldl widen widths).length := by
  induction rows generalizing widths with
  | nil => simp
  | cons first rest ih =>
    obtain ⟨wider, others⟩ := ih (widen widths first)
    rw [length_widen] at wider
    refine ⟨le_trans (le_max_left _ _) wider, ?_⟩
    intro row member
    rcases List.mem_cons.mp member with rfl | later
    · exact le_trans (le_max_right _ _) wider
    · exact others row later

theorem words_of_table_line (filled : ∀ cell ∈ row, cell ≠ [])
    (solid : ∀ cell ∈ row, ∀ c ∈ cell, isBlank c = false) (fits : row.length ≤ widths.length) :
    words (tableLine widths row) = row := by
  rw [tableLine, words_of_trimmed_end, words_of_padded_row filled solid fits]

theorem element_of_joined {α : Type} {separator : List α} {pieces : List (List α)} {c : α}
    (member : c ∈ separator.intercalate pieces) : c ∈ separator ∨ ∃ piece ∈ pieces, c ∈ piece := by
  induction pieces with
  | nil => simp at member
  | cons first rest ih =>
    cases rest with
    | nil => exact .inr ⟨first, List.mem_cons_self, by simpa using member⟩
    | cons next rest =>
      rw [List.intercalate_cons_cons, List.mem_append, List.mem_append] at member
      rcases member with (inside | between) | later
      · exact .inr ⟨first, List.mem_cons_self, inside⟩
      · exact .inl between
      · rcases ih later with between | ⟨piece, present, inside⟩
        · exact .inl between
        · exact .inr ⟨piece, List.mem_cons_of_mem _ present, inside⟩

/-- What stands in a line is a space, or it stands in a cell. -/
theorem character_of_table_line {c : Char} (member : c ∈ tableLine widths row) :
    c = ' ' ∨ ∃ cell ∈ row, c ∈ cell := by
  have untrimmed : c ∈ columnGap.intercalate (List.zipWith padTo widths row) :=
    (text_begins_with_trimmed isBlank _).subset member
  rcases element_of_joined untrimmed with between | ⟨padded, present, inside⟩
  · exact .inl (by simpa [columnGap] using between)
  · rw [← List.map_uncurry_zip_eq_zipWith, List.mem_map] at present
    obtain ⟨⟨width, cell⟩, paired, rfl⟩ := present
    rcases List.mem_append.mp inside with own | padding
    · exact .inr ⟨cell, (List.of_mem_zip paired).2, own⟩
    · exact .inl (List.mem_replicate.mp padding).2

theorem flat_text_is_one_line {text : List Char} (flat : '\n' ∉ text) : splitAll (· == '\n') text = [text] := by
  refine splitAll_of_forall_not fun c member => ?_
  rw [beq_eq_false_iff_ne]
  rintro rfl
  exact flat member

/-- A table has the lines that were made for it, as long as no cell brings a line feed of its own. -/
theorem lines_of_table {headers : List (List Char)} {rows : List (List (List Char))}
    (flat : ∀ row ∈ headers :: rows, ∀ cell ∈ row, '\n' ∉ cell) :
    splitAll (· == '\n') (List.intercalate ['\n'] (tableLines headers rows)) = tableLines headers rows := by
  rw [splitAll_is_splitOnP, ← List.splitOn_eq_splitOnP]
  refine List.splitOn_intercalate '\n' ?_ (List.cons_ne_nil _ _)
  intro line member broken
  obtain ⟨row, present, rfl⟩ := List.mem_map.mp member
  rcases character_of_table_line broken with space | ⟨cell, inside, holds⟩
  · exact absurd space (by decide)
  · exact flat row present cell inside holds

theorem characters_of_rendered_table (headers : List String) (rows : List (List String)) :
    (renderTable headers rows).toList = List.intercalate ['\n']
      (tableLines (headers.map String.toList) (rows.map (List.map String.toList))) := by
  rw [renderTable, String.toList_intercalate, List.map_map]
  have unchanged : String.toList ∘ String.ofList = id := funext fun _ => String.toList_ofList
  rw [unchanged, List.map_id]
  rfl

/-- A table is shown in as many lines as it has rows, and one for the headers. -/
theorem lines_of_rendered_table {headers : List String} {rows : List (List String)}
    (flat : ∀ header ∈ headers, '\n' ∉ header.toList) (cells : ∀ row ∈ rows, ∀ cell ∈ row, IsWord cell) :
    splitAll (· == '\n') (renderTable headers rows).toList =
      tableLines (headers.map String.toList) (rows.map (List.map String.toList)) := by
  have no_line_feed : ∀ row ∈ headers.map String.toList :: rows.map (List.map String.toList),
      ∀ cell ∈ row, '\n' ∉ cell := by
    intro row member cell inside
    rcases List.mem_cons.mp member with rfl | below
    · obtain ⟨header, present, rfl⟩ := List.mem_map.mp inside
      exact flat header present
    · obtain ⟨row, present, rfl⟩ := List.mem_map.mp below
      obtain ⟨cell, within, rfl⟩ := List.mem_map.mp inside
      exact word_is_flat (cells row present cell within)
  rw [characters_of_rendered_table, lines_of_table no_line_feed]

/-- A row of words is read back from its line, in a table that has columns for it. -/
theorem cells_of_table_line {row : List String} {all : List (List (List Char))}
    (member : row.map String.toList ∈ all)
    (cells : ∀ cell ∈ row, IsWord cell) :
    (words (tableLine (columnWidths all) (row.map String.toList))).map String.ofList = row := by
  have fits := (every_cell_has_a_column [] all).2 (row.map String.toList) member
  have read := words_of_table_line (List.forall_mem_map.mpr fun cell inside => (cells cell inside).filled)
    (List.forall_mem_map.mpr fun cell inside => (cells cell inside).solid) fits
  rw [columnWidths, read, List.map_map]
  exact (List.map_congr_left fun cell _ => String.ofList_toList).trans (List.map_id row)

/-- Reading a table gives its cells back. -/
theorem cells_of_rendered_table {headers : List String} {rows : List (List String)}
    (flat : ∀ header ∈ headers, '\n' ∉ header.toList) (cells : ∀ row ∈ rows, ∀ cell ∈ row, IsWord cell) :
    tableCells (renderTable headers rows) = rows := by
  rw [tableCells, lines_of_rendered_table flat cells, tableLines, List.map_cons, List.tail_cons, List.map_map,
    List.map_map]
  -- Every row below the headers is read back on its own.
  refine (List.map_congr_left fun row member => ?_).trans (List.map_id rows)
  exact cells_of_table_line (List.mem_cons_of_mem _ (List.mem_map_of_mem member)) (cells row member)

end CloudTerminal.Text
