import Mathlib.Data.List.TakeWhile
import CloudTerminal.Line

/-!
Words and blanks. Everything about words follows from what a separator does (`splitAll_append_sep`). A text that
has one word is that word between blanks (`blanks_around_only_word`), so trimming a text and cutting it into words
agree on whether it is a given word (`trim_eq_iff_only_word`).
-/

namespace CloudTerminal

namespace Text

/-- Cutting at separators is what the library does with lists. -/
theorem splitAll_is_splitOnP {α : Type} (p : α → Bool) (text : List α) : splitAll p text = text.splitOnP p := by
  induction text with
  | nil => exact List.splitOnP_nil.symm
  | cons c rest ih =>
    rw [List.splitOnP_cons_eq_if_modifyHead, ← ih]
    cases sep : p c with
    | true => simpa using splitAll_cons_of_sep sep rest
    | false =>
      obtain ⟨piece, pieces, found⟩ := List.exists_cons_of_ne_nil (splitAll_ne_nil p rest)
      rw [splitAll_cons_of_not_sep sep found, found]
      rfl

/-- A separator cuts a text in two, whose pieces are those of the text. -/
theorem splitAll_append_sep {α : Type} {p : α → Bool} {c : α} (sep : p c = true) (before after : List α) :
    splitAll p (before ++ c :: after) = splitAll p before ++ splitAll p after := by
  simp only [splitAll_is_splitOnP]
  exact List.splitOnP_append_cons before after sep

theorem pieces_hold_no_separator {α : Type} {p : α → Bool} {text piece : List α}
    (member : piece ∈ splitAll p text) : ∀ c ∈ piece, p c = false := by
  induction text generalizing piece with
  | nil =>
    obtain rfl := List.mem_singleton.mp member
    simp
  | cons c rest ih =>
    cases sep : p c with
    | true =>
      rw [splitAll_cons_of_sep sep] at member
      rcases List.mem_cons.mp member with rfl | later
      · simp
      · exact ih later
    | false =>
      obtain ⟨first, pieces, found⟩ := List.exists_cons_of_ne_nil (splitAll_ne_nil p rest)
      rw [splitAll_cons_of_not_sep sep found] at member
      rw [found] at ih
      rcases List.mem_cons.mp member with rfl | later
      · exact List.forall_mem_cons.mpr ⟨sep, ih List.mem_cons_self⟩
      · exact ih (List.mem_cons_of_mem _ later)

/-- A text is its pieces, joined by the separator. -/
theorem joined_pieces (c : Char) (text : List Char) : [c].intercalate (splitAll (· == c) text) = text := by
  rw [splitAll_is_splitOnP]
  exact List.intercalate_splitOn c

/-- Pieces without the separator are those of a text exactly if the text is what they give when they are joined. -/
theorem pieces_iff_joined {c : Char} {text : List Char} {pieces : List (List Char)} (filled : pieces ≠ [])
    (clear : ∀ piece ∈ pieces, c ∉ piece) : splitAll (· == c) text = pieces ↔ text = [c].intercalate pieces := by
  constructor
  · rintro rfl
    exact (joined_pieces c text).symm
  · rintro rfl
    rw [splitAll_is_splitOnP]
    exact List.splitOn_intercalate c clear filled

/-- A text has no words exactly if it is blank. -/
theorem no_words_iff_all_blank (text : List Char) : words text = [] ↔ ∀ c ∈ text, isBlank c = true := by
  have kept := flatten_splitAll isBlank text
  have empty := List.flatten_eq_nil_iff (L := splitAll isBlank text)
  rw [kept] at empty
  simpa [words] using empty.symm

/-- A blank ends the words before it. -/
theorem words_append_blank {c : Char} (blank : isBlank c = true) (before after : List Char) :
    words (before ++ c :: after) = words before ++ words after := by
  rw [words, splitAll_append_sep blank, List.filter_append]
  rfl

theorem words_of_solid {word : List Char} (some_there : word ≠ []) (solid : ∀ c ∈ word, isBlank c = false) :
    words word = [word] := by
  simp [words, splitAll_of_forall_not solid, some_there]

/-- Blanks in front do not count. -/
theorem words_after_blanks {blanks : List Char} (blank : ∀ c ∈ blanks, isBlank c = true) (text : List Char) :
    words (blanks ++ text) = words text := by
  induction blanks with
  | nil => rfl
  | cons c rest ih =>
    have step := words_append_blank (blank c List.mem_cons_self) [] (rest ++ text)
    exact step.trans (ih fun d member => blank d (List.mem_cons_of_mem _ member))

theorem words_before_blanks {blanks : List Char} (blank : ∀ c ∈ blanks, isBlank c = true) (text : List Char) :
    words (text ++ blanks) = words text := by
  cases blanks with
  | nil => rw [List.append_nil]
  | cons c rest =>
    have none_left : words rest = [] :=
      (no_words_iff_all_blank rest).mpr fun d member => blank d (List.mem_cons_of_mem _ member)
    rw [words_append_blank (blank c List.mem_cons_self), none_left, List.append_nil]

/-- Words that are joined by single spaces are read back. -/
theorem words_of_joined {pieces : List (List Char)} (filled : ∀ piece ∈ pieces, piece ≠ [])
    (solid : ∀ piece ∈ pieces, ∀ c ∈ piece, isBlank c = false) : words ([' '].intercalate pieces) = pieces := by
  induction pieces with
  | nil => rfl
  | cons first rest ih =>
    obtain ⟨filled_first, filled_rest⟩ := List.forall_mem_cons.mp filled
    obtain ⟨solid_first, solid_rest⟩ := List.forall_mem_cons.mp solid
    have alone : words first = [first] := words_of_solid filled_first solid_first
    cases rest with
    | nil => rw [List.intercalate_singleton, alone]
    | cons second rest =>
      rw [List.intercalate_cons_cons, List.append_assoc, List.singleton_append,
        words_append_blank (by decide), alone, ih filled_rest solid_rest]
      rfl

theorem words_are_solid {text word : List Char} (member : word ∈ words text) :
    word ≠ [] ∧ ∀ c ∈ word, isBlank c = false := by
  obtain ⟨piece, filled⟩ := List.mem_filter.mp member
  exact ⟨by simpa using filled, pieces_hold_no_separator piece⟩

/-- A text that can be a word of a line: it is not empty, and it holds no blanks. -/
structure IsWord (text : String) : Prop where
  filled : text.toList ≠ []
  solid : ∀ c ∈ text.toList, isBlank c = false

instance (text : String) : Decidable (IsWord text) :=
  decidable_of_iff (text.toList ≠ [] ∧ text.toList.all (!isBlank ·) = true)
    ⟨fun checked => ⟨checked.1, by simpa using checked.2⟩, fun word => ⟨word.filled, by simpa using word.solid⟩⟩

theorem word_is_flat {text : String} (word : IsWord text) : '\n' ∉ text.toList := by
  intro member
  exact absurd (word.solid '\n' member) (by decide)

theorem word_of_appended {text more : String} (word : IsWord text) (other : IsWord more) :
    IsWord (text ++ more) := by
  constructor <;> rw [String.toList_append]
  · exact List.append_ne_nil_of_left_ne_nil word.filled _
  · exact List.forall_mem_append.mpr ⟨word.solid, other.solid⟩

/-- A text that has one word is that word between blanks. -/
theorem blanks_around_only_word {text word : List Char} (only : words text = [word]) :
    ∃ before after, (∀ c ∈ before, isBlank c = true) ∧ (∀ c ∈ after, isBlank c = true) ∧
      text = before ++ (word ++ after) := by
  have blank_before : ∀ c ∈ text.takeWhile isBlank, isBlank c = true := fun _ => List.mem_takeWhile_imp
  have start : text = text.takeWhile isBlank ++ text.dropWhile isBlank := List.takeWhile_append_dropWhile.symm
  cases rest : text.dropWhile isBlank with
  | nil =>
    rw [(no_words_iff_all_blank text).mpr (List.dropWhile_eq_nil_iff.mp rest)] at only
    cases only
  | cons first others =>
    have solid_first : isBlank first = false := by
      have head := List.head_dropWhile_not (p := isBlank) (l := text) (by simp [rest])
      simpa only [rest, List.head_cons] using head
    rw [start, words_after_blanks blank_before, rest] at only
    -- The text from its first character on that is not blank is the word up to the next blank.
    let solid := (first :: others).takeWhile (!isBlank ·)
    have all_solid : ∀ c ∈ solid, isBlank c = false := fun c member => by
      simpa using List.mem_takeWhile_imp member
    have some_there : solid ≠ [] := by simp [solid, solid_first]
    have cut : first :: others = solid ++ (first :: others).dropWhile (!isBlank ·) :=
      List.takeWhile_append_dropWhile.symm
    cases later : (first :: others).dropWhile (!isBlank ·) with
    | nil =>
      rw [later, List.append_nil] at cut
      rw [cut, words_of_solid some_there all_solid] at only
      refine ⟨text.takeWhile isBlank, [], blank_before, by simp, ?_⟩
      rw [List.append_nil, ← List.singleton_inj.mp only, ← cut, ← rest]
      exact start
    | cons blank after =>
      have is_blank : isBlank blank = true := by
        have head := List.head_dropWhile_not (p := (!isBlank ·)) (l := first :: others) (by simp [later])
        simpa only [later, List.head_cons, Bool.not_eq_eq_eq_not, Bool.not_false] using head
      rw [later] at cut
      rw [cut, words_append_blank is_blank, words_of_solid some_there all_solid] at only
      simp only [List.singleton_append, List.cons.injEq] at only
      refine ⟨text.takeWhile isBlank, blank :: after, blank_before, ?_, ?_⟩
      · exact List.forall_mem_cons.mpr ⟨is_blank, (no_words_iff_all_blank after).mp only.2⟩
      · rw [← only.1, ← cut, ← rest]
        exact start

private theorem drop_blanks {blanks word rest : List Char} (some_there : word ≠ [])
    (solid : ∀ c ∈ word, isBlank c = false) (blank : ∀ c ∈ blanks, isBlank c = true) :
    (blanks ++ (word ++ rest)).dropWhile isBlank = word ++ rest := by
  rw [List.dropWhile_append_of_pos blank]
  cases word with
  | nil => exact absurd rfl some_there
  | cons first others => exact List.dropWhile_cons_of_neg (by simp [solid first List.mem_cons_self])

/-- Trimming takes off the blanks on both sides, and stops at the word between them. -/
theorem trim_between_blanks {word before after : List Char} (some_there : word ≠ [])
    (solid : ∀ c ∈ word, isBlank c = false) (blank_before : ∀ c ∈ before, isBlank c = true)
    (blank_after : ∀ c ∈ after, isBlank c = true) :
    trim isBlank (before ++ (word ++ after)) = word := by
  have backwards : (after.reverse ++ (word.reverse ++ [])).dropWhile isBlank = word.reverse ++ [] :=
    drop_blanks (by simpa using some_there) (by simpa using solid) (by simpa using blank_after)
  rw [List.append_nil] at backwards
  rw [trim, trimStart, drop_blanks some_there solid blank_before, trimEnd, List.reverse_append, backwards,
    List.reverse_reverse]

theorem words_of_trimmed_end (text : List Char) : words (trimEnd isBlank text) = words text := by
  obtain ⟨trailing, whole, blank⟩ := trimEnd_spec isBlank text
  have same := congrArg words whole
  rw [words_before_blanks blank] at same
  exact same.symm

theorem blanks_around_trimmed (text : List Char) :
    ∃ before after, (∀ c ∈ before, isBlank c = true) ∧ (∀ c ∈ after, isBlank c = true) ∧
      text = before ++ (trim isBlank text ++ after) := by
  obtain ⟨trailing, ending, blank⟩ := trimEnd_spec isBlank (trimStart isBlank text)
  refine ⟨text.takeWhile isBlank, trailing, fun _ => List.mem_takeWhile_imp, blank, ?_⟩
  rw [trim, ← ending]
  exact List.takeWhile_append_dropWhile.symm

/-- Trimming leaves a word without blanks if and only if that is the only word. -/
theorem trim_eq_iff_only_word {text word : List Char} (some_there : word ≠ [])
    (solid : ∀ c ∈ word, isBlank c = false) : trim isBlank text = word ↔ words text = [word] := by
  constructor
  · rintro rfl
    obtain ⟨before, after, blank_before, blank_after, around⟩ := blanks_around_trimmed text
    have same := congrArg words around
    rw [words_after_blanks blank_before, words_before_blanks blank_after,
      words_of_solid some_there solid] at same
    exact same
  · intro only
    obtain ⟨before, after, blank_before, blank_after, rfl⟩ := blanks_around_only_word only
    exact trim_between_blanks some_there solid blank_before blank_after

end Text

theorem Line.parse_eq_word_iff {line word : String} :
    Line.parse line = some ⟨word, []⟩ ↔ Text.words line.toList = [word.toList] := by
  unfold Line.parse
  split
  · rename_i none_left
    simp [none_left]
  · rename_i command arguments found
    have same : String.ofList command = word ↔ command = word.toList := by
      rw [← String.toList_inj, String.toList_ofList]
    simp [found, same, and_comm]

/-- Words that are joined by single spaces are those of a line. -/
theorem Line.parse_of_joined {command : String} {arguments : List String}
    (solid : ∀ word ∈ command :: arguments, Text.IsWord word) :
    Line.parse (" ".intercalate (command :: arguments)) = some ⟨command, arguments⟩ := by
  have characters : Text.words (" ".intercalate (command :: arguments)).toList =
      (command :: arguments).map String.toList := by
    rw [String.toList_intercalate]
    exact Text.words_of_joined (List.forall_mem_map.mpr fun word member => (solid word member).filled)
      (List.forall_mem_map.mpr fun word member => (solid word member).solid)
  unfold parse
  rw [characters]
  simp only [List.map_cons, List.map_map, String.ofList_toList]
  congr 2
  exact (List.map_congr_left fun _ _ => String.ofList_toList).trans (List.map_id arguments)

/-- A line of two words that are parted by one blank is a command with one argument. -/
theorem Line.parse_of_one_argument {command argument : String} (word : Text.IsWord command)
    (other : Text.IsWord argument) : Line.parse s!"{command} {argument}" = some ⟨command, [argument]⟩ := by
  have joined : s!"{command} {argument}" = " ".intercalate [command, argument] := by
    simp [toString]
  rw [joined]
  exact Line.parse_of_joined (List.forall_mem_cons.mpr ⟨word, List.forall_mem_singleton.mpr other⟩)

theorem Line.arguments_are_words {line argument : String} {words : Line} (parsed : Line.parse line = some words)
    (member : argument ∈ words.arguments) : Text.IsWord argument := by
  unfold parse at parsed
  split at parsed
  · cases parsed
  · rename_i command arguments found
    obtain rfl := Option.some.inj parsed
    obtain ⟨word, present, rfl⟩ := List.mem_map.mp member
    have written : word ∈ Text.words line.toList := found ▸ List.mem_cons_of_mem _ present
    have solid := Text.words_are_solid written
    exact ⟨by simpa using solid.1, by simpa using solid.2⟩

end CloudTerminal
