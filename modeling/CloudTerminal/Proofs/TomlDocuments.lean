import Mathlib.Data.List.Forall2
import CloudTerminal.Proofs.Numeral
import CloudTerminal.Toml.Document

/-!
TOML documents of bare keys whose values are texts and integers. `IsDocument` says which texts are documents
of which entries without reading them: a text between double quotes has its characters as they are or escaped
in any of the ways there are, an integer is its numeral, and blanks and empty lines may stand in between.
Every such text is read as its entries, in their order (`document_is_read`).
-/

namespace CloudTerminal.Toml

/-- The letters that stand for a character behind a backslash. -/
def escapes : List (Char × Char) :=
  [('b', '\x08'), ('t', '\t'), ('n', '\n'), ('f', '\x0c'), ('r', '\r'), ('"', '"'), ('\\', '\\')]

/-- A hexadecimal digit, in either case. -/
def IsHexDigit (value : Nat) (c : Char) : Prop :=
  value < 16 ∧ (c = value.digitChar ∨ c = value.digitChar.toUpper)

/-- Hexadecimal digits of a number, which may begin with zeros. -/
def AreHexDigits (digits : List Char) (n : Nat) : Prop :=
  ∃ values, List.Forall₂ IsHexDigit values digits ∧ Text.ofDigits 16 values = n

/-- The ways of writing a character between double quotes. -/
inductive IsSpelled (c : Char) : List Char → Prop where
  | plain (printable : c = '\t' ∨ ' ' ≤ c) (not_delete : c ≠ '\x7f') (not_quote : c ≠ '"')
    (not_escape : c ≠ '\\') :
      IsSpelled c [c]
  | letter {letter : Char} (listed : (letter, c) ∈ escapes) : IsSpelled c ['\\', letter]
  | short {digits : List Char} (four : digits.length = 4) (code : AreHexDigits digits c.toNat) :
      IsSpelled c ('\\' :: 'u' :: digits)
  | long {digits : List Char} (eight : digits.length = 8) (code : AreHexDigits digits c.toNat) :
      IsSpelled c ('\\' :: 'U' :: digits)

/-- The ways of writing a text between double quotes. -/
inductive AreSpelled : List Char → List Char → Prop where
  | nil : AreSpelled [] []
  | cons {c : Char} {text front back : List Char} (first : IsSpelled c front) (others : AreSpelled text back) :
      AreSpelled (c :: text) (front ++ back)

/-- The ways of writing a value. -/
inductive IsWritten : Value → List Char → Prop where
  | string {text : String} {written : List Char} (spelled : AreSpelled text.toList written) :
      IsWritten (.string text) ('"' :: (written ++ ['"']))
  | integer {n : Int} (least : Int64.minValue.toInt ≤ n) (greatest : n ≤ Int64.maxValue.toInt) :
      IsWritten (.integer n) (toString n).toList

/-- Blanks within a line, or none. -/
def IsGap (text : List Char) : Prop := ∀ c ∈ text, c = ' ' ∨ c = '\t'

/-- A key that needs no quotes. -/
structure IsBareKey (key : String) : Prop where
  filled : key ≠ ""
  bare : ∀ c ∈ key.toList, c.isAlphanum = true ∨ c = '-' ∨ c = '_'

/-- The lines that give a bare key a value, without what ends them. -/
structure IsLine (key : String) (value : Value) (line : List Char) : Prop where
  bare : IsBareKey key
  parts : ∃ margin before after written ending, IsGap margin ∧ IsGap before ∧ IsGap after ∧ IsGap ending ∧
    IsWritten value written ∧ line = margin ++ (key.toList ++ (before ++ '=' :: (after ++ (written ++ ending))))

/-- What ends a line. -/
def IsLineEnd (text : List Char) : Prop := text = ['\n'] ∨ text = ['\r', '\n']

/-- The texts that give bare keys values, line by line. -/
inductive IsDocument : Entries → List Char → Prop where
  | empty : IsDocument [] []
  | last {key : String} {value : Value} {line : List Char} (given : IsLine key value line) :
      IsDocument [(key, value)] line
  | line {key : String} {value : Value} {line ending rest : List Char} {entries : Entries}
      (given : IsLine key value line) (ended : IsLineEnd ending) (others : IsDocument entries rest) :
      IsDocument ((key, value) :: entries) (line ++ (ending ++ rest))
  | gap {gap ending rest : List Char} {entries : Entries} (blank : IsGap gap) (ended : IsLineEnd ending)
      (others : IsDocument entries rest) : IsDocument entries (gap ++ (ending ++ rest))

section Strings

variable {c : Char} {text written digits rest : List Char}

theorem hex_digit_values : ∀ value < 16, Text.hexValue? value.digitChar = some value ∧
    Text.hexValue? value.digitChar.toUpper = some value := by decide

theorem hex_digits_are_read {n : Nat} (code : AreHexDigits digits n) (filled : digits ≠ []) :
    Text.readDigits? 16 digits = some n := by
  obtain ⟨values, listed, rfl⟩ := code
  have read : digits.mapM (Text.digitValue? 16) = some values := by
    clear filled
    induction listed with
    | nil => rfl
    | @cons value c _ _ first _ ih =>
      have found : Text.hexValue? c = some value := by
        obtain ⟨small, rfl | rfl⟩ := first
        · exact (hex_digit_values value small).1
        · exact (hex_digit_values value small).2
      have kept : Text.digitValue? 16 c = some value := by simp [Text.digitValue?, found, first.1]
      simp [kept, ih]
  simp [Text.readDigits?, filled, read]

theorem scalar_of_char (c : Char) : scalar? c.toNat = some c := by
  have valid : c.toNat.isValidChar := c.valid
  rw [scalar?, if_pos valid, Char.ofNat_toNat]

theorem code_is_read (rest : List Char) (filled : digits ≠ []) (code : AreHexDigits digits c.toNat) :
    readEscape.readCode digits.length (digits ++ rest) = some (c, rest) := by
  rw [readEscape.readCode, if_neg (by simp), List.take_left, List.drop_left, hex_digits_are_read code filled,
    Option.bind_some, scalar_of_char]
  rfl

/-- Each way to spell a character with a backslash is read as that character. -/
theorem escape_is_read {escape : List Char} (spelled : IsSpelled c ('\\' :: escape)) :
    readEscape (escape ++ rest) = some (c, rest) := by
  cases spelled with
  | plain _ _ _ not_escape => exact absurd rfl not_escape
  | letter listed =>
    simp only [escapes, List.mem_cons, Prod.mk.injEq, List.not_mem_nil, or_false] at listed
    rcases listed with ⟨rfl, rfl⟩ | ⟨rfl, rfl⟩ | ⟨rfl, rfl⟩ | ⟨rfl, rfl⟩ | ⟨rfl, rfl⟩ | ⟨rfl, rfl⟩ |
      ⟨rfl, rfl⟩ <;> rfl
  | short four code =>
    have read := code_is_read rest (by simp [← List.length_pos_iff, four]) code
    rwa [four] at read
  | long eight code =>
    have read := code_is_read rest (by simp [← List.length_pos_iff, eight]) code
    rwa [eight] at read

theorem read_behind_escape {escape after : List Char} (read : readEscape escape = some (c, after)) :
    readBasic ('\\' :: escape) = withFirst c (readBasic after) := by
  rw [readBasic]
  split
  · rename_i unread
    cases unread.symm.trans read
  · rename_i found
    cases found.symm.trans read
    rfl

theorem read_behind_plain (printable : isPrintable c = true) (not_quote : c ≠ '"') (not_escape : c ≠ '\\') :
    readBasic (c :: rest) = withFirst c (readBasic rest) := by
  rw [readBasic, if_pos printable]
  · exact not_quote
  · exact not_escape

/-- A spelled text is read up to the quote behind it, by induction on its spelling. -/
theorem spelled_is_read (spelled : AreSpelled text written) (rest : List Char) :
    readBasic (written ++ '"' :: rest) = some (text, rest) := by
  induction spelled with
  | nil => rw [List.nil_append, readBasic]
  | @cons c text front back first _ ih =>
    have escaped {escape : List Char} (same : front = '\\' :: escape) :
        readBasic (front ++ back ++ '"' :: rest) = some (c :: text, rest) := by
      subst same
      rw [List.append_assoc, List.cons_append, read_behind_escape (escape_is_read first), ih]
      rfl
    cases first with
    | plain printable not_delete not_quote not_escape =>
      have kept : isPrintable c = true := by
        rcases printable with rfl | visible
        · rfl
        · simp [isPrintable, visible, not_delete]
      rw [List.append_assoc, List.singleton_append, read_behind_plain kept not_quote not_escape, ih]
      rfl
    | letter _ => exact escaped rfl
    | short _ _ => exact escaped rfl
    | long _ _ => exact escaped rfl

/-- A text does not close the quotes that it is written between. -/
theorem spelled_does_not_begin_with_quote (spelled : AreSpelled text written) : written.head? ≠ some '"' := by
  cases spelled with
  | nil => simp
  | cons first _ =>
    cases first with
    | plain _ _ not_quote _ => simpa using not_quote
    | letter _ | short _ _ | long _ _ => simp

theorem padded_digits_denote_the_number (width n : Nat) :
    AreHexDigits (Text.hexDigits width n) (n % 16 ^ width) := by
  induction width generalizing n with
  | zero => exact ⟨[], .nil, (Nat.mod_one n).symm⟩
  | succ width ih =>
    obtain ⟨values, listed, same⟩ := ih (n / 16)
    have small : n % 16 < 16 := Nat.mod_lt n (by decide)
    have last : List.Forall₂ IsHexDigit [n % 16] [(n % 16).digitChar] := .cons ⟨small, .inl rfl⟩ .nil
    refine ⟨values ++ [n % 16], List.rel_append listed last, ?_⟩
    calc Text.ofDigits 16 (values ++ [n % 16])
        = Text.ofDigits 16 values * 16 + n % 16 := by simp [Text.ofDigits]
      _ = n % 16 + 16 * (n / 16 % 16 ^ width) := by rw [same, Nat.mul_comm, Nat.add_comm]
      _ = n % 16 ^ (width + 1) := by rw [← Nat.mod_mul, Nat.pow_succ, Nat.mul_comm]

/-- Every character has a code, so that there is no text that cannot be written. -/
theorem every_text_is_spelled (text : List Char) : ∃ written, AreSpelled text written := by
  induction text with
  | nil => exact ⟨[], .nil⟩
  | cons c rest ih =>
    obtain ⟨written, others⟩ := ih
    have small : c.toNat < 16 ^ 8 := Nat.lt_of_lt_of_le c.val.toNat_lt (by decide)
    have code := padded_digits_denote_the_number 8 c.toNat
    rw [Nat.mod_eq_of_lt small] at code
    exact ⟨_, .cons (.long (Text.length_paddedDigits 16 8 _) code) others⟩

end Strings

section Integers

variable {n : Int} {word : List Char}

theorem integer_numeral (n : Int) :
    (toString n).toList = (if n < 0 then ['-'] else []) ++ Nat.toDigits 10 n.natAbs := by
  cases n with
  | ofNat n =>
    have same : toString (Int.ofNat n) = toString n := rfl
    rw [if_neg (by simp), same]
    simp
  | negSucc n =>
    have same : toString (Int.negSucc n) = "-" ++ toString (n + 1) := rfl
    rw [if_pos (Int.negSucc_lt_zero n), same]
    simp

theorem digit_of_numeral {n : Nat} {c : Char} (member : c ∈ Nat.toDigits 10 n) : c.isDigit = true :=
  Nat.isDigit_of_mem_toDigits (by decide) (by decide) member

theorem sign_or_digit_of_numeral : ∀ c ∈ (toString n).toList, c = '-' ∨ c.isDigit = true := by
  intro c member
  rw [integer_numeral, List.mem_append] at member
  rcases member with sign | digit
  · split at sign
    · exact .inl (List.mem_singleton.mp sign)
    · cases sign
  · exact .inr (digit_of_numeral digit)

theorem numeral_begins (n : Int) :
    ∃ c others, (toString n).toList = c :: others ∧ (c = '-' ∨ c.isDigit = true) := by
  have filled : (toString n).toList ≠ [] := by
    rw [integer_numeral]
    exact List.append_ne_nil_of_right_ne_nil _ Nat.toDigits_ne_nil
  obtain ⟨c, others, same⟩ := List.exists_cons_of_ne_nil filled
  exact ⟨c, others, same, sign_or_digit_of_numeral c (by rw [same]; exact List.mem_cons_self)⟩

theorem digit_behind_first_place {place : Nat} {c : Char} (at_place : (toString n).toList[place + 1]? = some c) :
    c.isDigit = true := by
  rw [integer_numeral] at at_place
  split at at_place
  · exact digit_of_numeral (List.mem_of_getElem? at_place)
  · exact digit_of_numeral (List.mem_of_getElem? at_place)

theorem dash_in_day (day : DateTime.isDay word = true) : word[4]? = some '-' := by
  unfold DateTime.isDay at day
  split at day
  · rfl
  · cases day

theorem colon_in_time (time : DateTime.isTime word = true) : word[2]? = some ':' := by
  unfold DateTime.isTime at time
  split at time
  · rfl
  · cases time

/-- A numeral is not taken for a date, since no dash stands within it. -/
theorem numeral_is_no_day : DateTime.isDay (toString n).toList = false := by
  rw [← Bool.not_eq_true]
  intro day
  exact absurd (digit_behind_first_place (dash_in_day day)) (by decide)

theorem numeral_is_no_point_in_time : DateTime.isPoint (toString n).toList = false := by
  rw [← Bool.not_eq_true, DateTime.isPoint, numeral_is_no_day, Bool.false_or, Bool.or_eq_true]
  rintro (time | both)
  · exact absurd (digit_behind_first_place (colon_in_time time)) (by decide)
  · rw [DateTime.isDayAndTime, Bool.and_eq_true] at both
    have dash := dash_in_day both.1
    rw [List.getElem?_take_of_lt (by decide)] at dash
    exact absurd (digit_behind_first_place dash) (by decide)

theorem ungrouped_digits (digits : ∀ c ∈ word, c.isDigit = true) :
    Number.readGrouped? 10 word = Text.readDigits? 10 word := by
  have alone : ∀ c ∈ word, (c == '_') = false := fun c member => by
    simp only [beq_eq_false_iff_ne]
    rintro rfl
    exact absurd (digits '_' member) (by decide)
  have ungrouped : Number.ungroup word = word :=
    List.filter_eq_self.mpr fun c member => by simpa using alone c member
  rw [Number.readGrouped?, Number.isGrouped, Text.splitAll_of_forall_not alone, ungrouped]
  cases read : Text.readDigits? 10 word <;> simp [read]

theorem decimal_is_read (n : Nat) : Number.readDecimal? (Nat.toDigits 10 n) = some n := by
  obtain ⟨read, alone⟩ := Text.numeral_iff_read_without_leading_zero.mp
    (rfl : Nat.toDigits 10 n = Nat.toDigits 10 n)
  have no_leading_zero : Number.hasLeadingZero (Nat.toDigits 10 n) = false := by
    unfold Number.hasLeadingZero
    split
    · rename_i same
      rw [same] at alone
      simp at alone
    · rfl
  rw [Number.readDecimal?, no_leading_zero, if_neg Bool.false_ne_true,
    ungrouped_digits fun c => digit_of_numeral, read]

theorem digits_have_no_sign (n : Nat) : Number.cutSign (Nat.toDigits 10 n) = (false, Nat.toDigits 10 n) := by
  have no_sign {sign : Char} {rest : List Char} (same : Nat.toDigits 10 n = sign :: rest)
      (no_digit : sign.isDigit = false) : False :=
    Bool.false_ne_true (no_digit.symm.trans (digit_of_numeral (n := n) (by rw [same]; exact List.mem_cons_self)))
  unfold Number.cutSign
  split
  · rename_i same
    exact (no_sign same rfl).elim
  · rename_i same
    exact (no_sign same rfl).elim
  · rfl

/-- A decimal numeral that fits is read as its number. -/
theorem numeral_is_read (least : Int64.minValue.toInt ≤ n) (greatest : n ≤ Int64.maxValue.toInt) :
    Number.readInteger? (toString n).toList = some n := by
  have range : (decide (Int64.minValue.toInt ≤ n) && decide (n ≤ Int64.maxValue.toInt)) = true := by
    rw [decide_eq_true least, decide_eq_true greatest, Bool.and_self]
  have signed : (Number.readDecimal? (Number.cutSign (toString n).toList).2).map
      (Number.signed (Number.cutSign (toString n).toList).1) = some n := by
    rw [integer_numeral]
    by_cases negative : n < 0
    · rw [if_pos negative, List.singleton_append, Number.cutSign, decimal_is_read, Option.map_some, Number.signed,
        if_pos rfl, Int.ofNat_natAbs_of_nonpos (Int.le_of_lt negative), Int.neg_neg]
    · rw [if_neg negative, List.nil_append, digits_have_no_sign, decimal_is_read, Option.map_some, Number.signed,
        if_neg Bool.false_ne_true, Int.natAbs_of_nonneg (Int.not_lt.mp negative)]
  have no_base {mark : Char} {digits : List Char} (same : (toString n).toList = '0' :: mark :: digits)
      (letter : mark.isDigit = false) : False := by
    have second : (toString n).toList[0 + 1]? = some mark := by
      rw [same]
      rfl
    exact Bool.false_ne_true (letter.symm.trans (digit_behind_first_place second))
  unfold Number.readInteger?
  split
  · rename_i same; exact (no_base same rfl).elim
  · rename_i same; exact (no_base same rfl).elim
  · rename_i same; exact (no_base same rfl).elim
  · rw [signed, Option.filter_some, if_pos range]

/-- A numeral is read as an integer and as nothing else, although dates and other values are tried as well. -/
theorem integer_of_numeral (least : Int64.minValue.toInt ≤ n) (greatest : n ≤ Int64.maxValue.toInt) :
    scalarOf? (toString n).toList = some (.integer n) := by
  have no_word {word : List Char} (letter : ∃ c ∈ word, c.isDigit = false ∧ c ≠ '-') :
      (toString n).toList ≠ word := by
    rintro rfl
    obtain ⟨c, member, no_digit, no_sign⟩ := letter
    rcases sign_or_digit_of_numeral c member with sign | digit
    · exact no_sign sign
    · exact Bool.false_ne_true (no_digit.symm.trans digit)
  rw [scalarOf?, if_neg (no_word ⟨'e', by decide⟩), if_neg (no_word ⟨'e', by decide⟩), numeral_is_no_point_in_time,
    if_neg Bool.false_ne_true, numeral_is_read least greatest]

end Integers

section Lines

variable {key : String} {value : Value} {gap ending line written rest : List Char} {draft : Draft}

/-- A text in front of which a line or a word ends. -/
def StopsWord (rest : List Char) : Prop := ∀ c ∈ rest.head?, c = ' ' ∨ c = '\t' ∨ c = '\n' ∨ c = '\r'

theorem end_stops_word (ended : IsLineEnd ending) : StopsWord (ending ++ rest) := by
  rcases ended with rfl | rfl <;> simp [StopsWord]

theorem gap_stops_word (blank : IsGap gap) (stops : StopsWord rest) : StopsWord (gap ++ rest) := by
  cases gap with
  | nil => exact stops
  | cons c others =>
    intro d first
    obtain rfl : c = d := by simpa using first
    rcases blank c List.mem_cons_self with space | tab
    · exact .inl space
    · exact .inr (.inl tab)

theorem longest_run {p : Char → Bool} {front back : List Char} (alike : ∀ c ∈ front, p c = true)
    (stops : ∀ c ∈ back.head?, p c = false) :
    (front ++ back).takeWhile p = front ∧ (front ++ back).dropWhile p = back := by
  rw [List.takeWhile_append_of_pos alike, List.dropWhile_append_of_pos alike]
  cases back with
  | nil => simp
  | cons c others => simp [stops c rfl]

theorem skip_gap (blank : IsGap gap) (other : ∀ c ∈ rest.head?, isInlineBlank c = false) :
    skipBlanks (gap ++ rest) = rest := by
  have all : ∀ c ∈ gap, isInlineBlank c = true := fun c member => by
    rcases blank c member with rfl | rfl <;> rfl
  exact (longest_run all other).2

/-- A line ends behind blanks, with a comment or without. -/
theorem line_ends (blank : IsGap gap) (ended : IsLineEnd ending) :
    finishLine? (gap ++ (ending ++ rest)) = some rest := by
  have skipped : skipBlanks (gap ++ (ending ++ rest)) = ending ++ rest := by
    refine skip_gap blank ?_
    rcases ended with rfl | rfl <;> simp [isInlineBlank]
  rw [finishLine?, skipped]
  rcases ended with rfl | rfl <;> rfl

theorem last_line_ends (blank : IsGap gap) : finishLine? gap = some [] := by
  have skipped : skipBlanks (gap ++ []) = [] := skip_gap blank (by simp)
  rw [List.append_nil] at skipped
  rw [finishLine?, skipped]
  rfl

theorem bare_key_is_bare (bare : IsBareKey key) : ∀ c ∈ key.toList, isBare c = true := by
  simpa [isBare, or_assoc] using bare.bare

theorem bare_key_begins (bare : IsBareKey key) : ∃ c others, key.toList = c :: others ∧ isBare c = true := by
  obtain ⟨c, others, same⟩ := List.exists_cons_of_ne_nil (mt String.toList_eq_nil_iff.mp bare.filled)
  exact ⟨c, others, same, bare_key_is_bare bare c (by rw [same]; exact List.mem_cons_self)⟩

theorem bare_is_no_mark {c : Char} (bare : isBare c = true) :
    isInlineBlank c = false ∧ c ∉ ['#', '\n', '\r', '[', '\ufeff'] := by
  constructor
  · rw [← Bool.not_eq_true]
    intro blank
    rcases (by simpa [isInlineBlank] using blank : c = ' ' ∨ c = '\t') with rfl | rfl <;> simp [isBare] at bare
  · intro mark
    simp only [List.mem_cons, List.not_mem_nil, or_false] at mark
    rcases mark with rfl | rfl | rfl | rfl | rfl <;> simp [isBare] at bare

theorem key_is_read (bare : IsBareKey key) (blank : IsGap gap) (limit : Nat) :
    readKey (limit + 1) (key.toList ++ (gap ++ '=' :: rest)) =
      some ({ path := [], name := key }, '=' :: rest) := by
  obtain ⟨c, others, same, first⟩ := bare_key_begins bare
  have no_gap : IsGap [] := by simp [IsGap]
  have margin : skipBlanks (key.toList ++ (gap ++ '=' :: rest)) = key.toList ++ (gap ++ '=' :: rest) :=
    skip_gap no_gap (by simpa [same] using (bare_is_no_mark first).1)
  have stops : ∀ c ∈ (gap ++ '=' :: rest).head?, isBare c = false := by
    cases gap with
    | nil => simp [isBare]
    | cons d others =>
      rcases blank d List.mem_cons_self with rfl | rfl <;> simp [isBare]
  obtain ⟨word, behind⟩ := longest_run (bare_key_is_bare bare) stops
  have part : readPart (key.toList ++ (gap ++ '=' :: rest)) = some (key, gap ++ '=' :: rest) := by
    rw [readPart, word, behind, String.ofList_toList, if_neg (by simp [same])]
  have skipped : skipBlanks (gap ++ '=' :: rest) = '=' :: rest := skip_gap blank (by simp [isInlineBlank])
  simp [readKey, margin, part, skipped]

/-- A quoted text on one line is not taken for one of several lines. -/
theorem quoted_is_read {text : List Char} (spelled : AreSpelled text written) (stops : StopsWord rest) :
    readQuotedLines ('"' :: (written ++ '"' :: rest)) = some (text, rest) := by
  unfold readQuotedLines
  split
  · rename_i same
    exfalso
    have first := spelled_does_not_begin_with_quote spelled
    cases written with
    | nil =>
      obtain rfl := (List.cons.inj (List.cons.inj same).2).2
      have stop := stops '"' rfl
      simp at stop
    | cons c others => exact first (congrArg some (List.cons.inj (List.cons.inj same).2).1)
  · rename_i same
    simp at same
  · exact spelled_is_read spelled rest

theorem scalar_is_read {word : List Char} (alike : ∀ c ∈ word, isScalarChar c = true) (stops : StopsWord rest)
    (no_day : DateTime.isDay word = false) (alone : scalarOf? word = some value) :
    readScalar (word ++ rest) = some (value, rest) := by
  have other : ∀ c ∈ rest.head?, isScalarChar c = false := fun c first => by
    rcases stops c first with rfl | rfl | rfl | rfl <;> rfl
  obtain ⟨run, behind⟩ := longest_run alike other
  rw [readScalar, run, behind, alone]
  split
  · simp [no_day]
  · rfl

theorem numeral_with_rest_is_read {n : Int} (least : Int64.minValue.toInt ≤ n)
    (greatest : n ≤ Int64.maxValue.toInt)
    (stops : StopsWord rest) : readScalar ((toString n).toList ++ rest) = some (.integer n, rest) := by
  refine scalar_is_read (fun c member => ?_) stops numeral_is_no_day (integer_of_numeral least greatest)
  rcases sign_or_digit_of_numeral c member with rfl | digit
  · rfl
  · simp [isScalarChar, Char.isAlphanum, digit]

/-- Every value is read back as it was written, in each of the ways to write it. -/
theorem value_is_read (well : IsWritten value written) (stops : StopsWord rest) (levels : Nat) :
    readValue levels (written ++ rest) = some (value, rest) := by
  cases well with
  | string spelled =>
    rw [List.cons_append, List.append_assoc, List.singleton_append, readValue, quoted_is_read spelled stops]
    · simp
    · simp
    · simp
  | @integer n least greatest =>
    have read := numeral_with_rest_is_read least greatest stops
    obtain ⟨c, others, same, first⟩ := numeral_begins n
    have other (mark : Char) (no_sign : mark ≠ '-') (no_digit : mark.isDigit = false) : c ≠ mark := by
      rintro rfl
      rcases first with sign | digit
      · exact no_sign sign
      · exact Bool.false_ne_true (no_digit.symm.trans digit)
    rw [same, List.cons_append] at read ⊢
    rw [readValue, read, if_neg (by simp [other])]
    · simp [other]
    · simp [other]

theorem line_begins (given : IsLine key value line) :
    ∃ margin c others, IsGap margin ∧ isBare c = true ∧ line = margin ++ c :: others := by
  obtain ⟨margin, before, after, written, ending, blank, -, -, -, -, whole⟩ := given.parts
  obtain ⟨c, others, same, first⟩ := bare_key_begins given.bare
  rw [same, List.cons_append] at whole
  exact ⟨margin, c, _, blank, first, whole⟩

/-- A line is not over before its key. -/
theorem line_is_not_empty (given : IsLine key value line) : finishLine? (line ++ rest) = none := by
  obtain ⟨margin, c, others, blank, first, rfl⟩ := line_begins given
  obtain ⟨no_blank, no_mark⟩ := bare_is_no_mark first
  simp only [List.mem_cons, List.not_mem_nil, or_false, not_or] at no_mark
  have skipped : skipBlanks (margin ++ c :: (others ++ rest)) = c :: (others ++ rest) :=
    skip_gap blank (by simpa using no_blank)
  rw [List.append_assoc, List.cons_append, finishLine?, skipped]
  simp [no_mark, afterNewline?]

theorem value_begins (well : IsWritten value written) :
    ∃ c others, written = c :: others ∧ isInlineBlank c = false := by
  cases well with
  | string _ => exact ⟨'"', _, rfl, rfl⟩
  | @integer n _ _ =>
    obtain ⟨c, others, same, sign_or_digit⟩ := numeral_begins n
    have bare : isBare c = true := by
      rcases sign_or_digit with rfl | digit
      · rfl
      · simp [isBare, Char.isAlphanum, digit]
    exact ⟨c, others, same, (bare_is_no_mark bare).1⟩

theorem pair_is_read {before after : List Char} (bare : IsBareKey key) (blank_before : IsGap before)
    (blank_after : IsGap after) (well : IsWritten value written) (stops : StopsWord rest) :
    readPair (readValue levelLimit) (key.toList ++ (before ++ '=' :: (after ++ (written ++ rest)))) =
      some ({ path := [], name := key }, value, rest) := by
  obtain ⟨c, others, same, no_blank⟩ := value_begins well
  have skipped : skipBlanks (after ++ (written ++ rest)) = written ++ rest :=
    skip_gap blank_after (by simpa [same] using no_blank)
  rw [readPair, levelLimit, key_is_read bare blank_before]
  simp [skipped, value_is_read well stops]

/-- A line adds its key with its value, if the key is fresh. -/
theorem statement_is_read (given : IsLine key value line) (stops : StopsWord rest) {root : Entries}
    (fresh : root.lookup key = none) : ∃ gap, IsGap gap ∧
      readStatement { root } (skipBlanks (line ++ rest)) =
        some ({ root := root ++ [(key, value)] }, gap ++ rest) := by
  obtain ⟨margin, before, after, written, ending, blank, blank_before, blank_after, blank_ending, well, rfl⟩ :=
    given.parts
  refine ⟨ending, blank_ending, ?_⟩
  have pair := pair_is_read given.bare blank_before blank_after well (gap_stops_word blank_ending stops)
  obtain ⟨c, others, same, first⟩ := bare_key_begins given.bare
  obtain ⟨no_blank, no_mark⟩ := bare_is_no_mark first
  have skipped :
      skipBlanks (margin ++ (key.toList ++ (before ++ '=' :: (after ++ (written ++ (ending ++ rest)))))) =
      key.toList ++ (before ++ '=' :: (after ++ (written ++ (ending ++ rest)))) :=
    skip_gap blank (by simpa [same] using no_blank)
  have inserted : root.changeAt (·.insert key value []) [] = some (root ++ [(key, value)]) := by
    simp only [Entries.changeAt, Entries.insert, fresh]
  simp only [List.append_assoc, List.cons_append, skipped]
  rw [same, List.cons_append] at pair ⊢
  unfold readStatement
  split
  · rename_i bracket
    obtain rfl := (List.cons.inj bracket).1
    simp at no_mark
  · rename_i bracket
    obtain rfl := (List.cons.inj bracket).1
    simp at no_mark
  · rw [pair]
    simp [inserted]

end Lines

section Documents

variable {entries root : Entries} {text : List Char}

theorem fresh_key {key : String} {value : Value}
    (distinct : ((root ++ (key, value) :: entries).map Prod.fst).Nodup) : root.lookup key = none := by
  rw [List.lookup_eq_none_iff]
  intro entry member
  rw [List.map_append, List.nodup_append] at distinct
  have other := distinct.2.2 entry.1 (List.mem_map_of_mem member) key (by simp)
  simpa using Ne.symm other

/-- One line is read, and the reading goes on behind its end. This is the step of the induction over the
lines. -/
theorem readLines_of_line {key : String} {value : Value} {line rest after : List Char}
    (given : IsLine key value line)
    (stops : StopsWord rest) (fresh : root.lookup key = none)
    (ends : ∀ gap, IsGap gap → finishLine? (gap ++ rest) = some after) (limit : Nat) :
    readLines (limit + 1) { root } (line ++ rest) = readLines limit { root := root ++ [(key, value)] } after := by
  obtain ⟨gap, blank, read⟩ := statement_is_read given stops fresh
  have filled : (line ++ rest).isEmpty = false := by
    obtain ⟨margin, c, others, -, -, rfl⟩ := line_begins given
    simp
  rw [readLines, filled, if_neg Bool.false_ne_true, line_is_not_empty given]
  simp only [read, ends gap blank]

/-- Every line adds its key with its value. -/
theorem lines_are_read (document : IsDocument entries text) (distinct : ((root ++ entries).map Prod.fst).Nodup)
    {limit : Nat} (enough : text.length < limit) :
      readLines limit { root } text = some { root := root ++ entries } := by
  induction document generalizing root limit with
  | empty =>
    obtain ⟨limit, rfl⟩ := Nat.exists_eq_add_one_of_ne_zero (Nat.ne_zero_of_lt enough)
    simp [readLines]
  | @last key value line given =>
    obtain ⟨limit, rfl⟩ := Nat.exists_eq_add_one_of_ne_zero (Nat.ne_zero_of_lt enough)
    have filled : 0 < line.length := by
      obtain ⟨margin, c, others, -, -, rfl⟩ := line_begins given
      simp only [List.length_append, List.length_cons]
      omega
    obtain ⟨limit, rfl⟩ := Nat.exists_eq_add_one_of_ne_zero (n := limit) (by omega)
    have stops : StopsWord [] := by simp [StopsWord]
    have read := readLines_of_line given stops (fresh_key distinct)
      (fun gap blank => by rw [List.append_nil, last_line_ends blank]) (limit + 1)
    rw [List.append_nil] at read
    rw [read, readLines]
    rfl
  | @line key value line ending rest entries given ended _ ih =>
    obtain ⟨limit, rfl⟩ := Nat.exists_eq_add_one_of_ne_zero (Nat.ne_zero_of_lt enough)
    have shorter : rest.length < limit := by
      have filled : 0 < ending.length := by rcases ended with rfl | rfl <;> decide
      simp only [List.length_append] at enough
      omega
    rw [readLines_of_line given (end_stops_word ended) (fresh_key distinct)
      (fun gap blank => line_ends blank ended)]
    have grown : root ++ (key, value) :: entries = root ++ [(key, value)] ++ entries :=
      List.append_cons root _ entries
    rw [grown] at distinct ⊢
    exact ih distinct shorter
  | @gap gap ending rest entries blank ended _ ih =>
    obtain ⟨limit, rfl⟩ := Nat.exists_eq_add_one_of_ne_zero (Nat.ne_zero_of_lt enough)
    have filled : 0 < ending.length := by rcases ended with rfl | rfl <;> decide
    simp only [List.length_append] at enough
    have some_text : (gap ++ (ending ++ rest)).isEmpty = false := by
      rcases ended with rfl | rfl <;> simp
    rw [readLines, some_text, if_neg Bool.false_ne_true, line_ends blank ended]
    exact ih distinct (by omega)

/-- Documents begin with a blank, a key or the end of a line. -/
theorem document_has_no_mark_in_front (document : IsDocument entries text) : text.head? ≠ some '\ufeff' := by
  have gap_in_front {gap rest : List Char} (blank : IsGap gap) (other : rest.head? ≠ some '\ufeff') :
      (gap ++ rest).head? ≠ some '\ufeff' := by
    cases gap with
    | nil => exact other
    | cons c others => rcases blank c List.mem_cons_self with rfl | rfl <;> simp
  have line_in_front {key : String} {value : Value} {line rest : List Char} (given : IsLine key value line) :
      (line ++ rest).head? ≠ some '\ufeff' := by
    obtain ⟨margin, c, others, blank, first, rfl⟩ := line_begins given
    have no_mark := (bare_is_no_mark first).2
    rw [List.append_assoc]
    refine gap_in_front blank ?_
    rintro same
    simp_all
  cases document with
  | empty => simp
  | last given =>
    have alone : (text ++ []).head? ≠ some '\ufeff' := line_in_front given
    rwa [List.append_nil] at alone
  | line given _ _ => exact line_in_front given
  | gap blank ended _ =>
    refine gap_in_front blank ?_
    rcases ended with rfl | rfl <;> simp

/-- A document of distinct keys is read as what it is written for, whatever the ways of writing it. -/
theorem document_is_read {document : String} (written : IsDocument entries document.toList)
    (distinct : (entries.map Prod.fst).Nodup) : parse document = some entries := by
  have no_mark := document_has_no_mark_in_front written
  have from_nothing : ((([] : Entries) ++ entries).map Prod.fst).Nodup := distinct
  have read : readLines (document.toList.length + 1) {} document.toList = some { root := entries } :=
    lines_are_read written from_nothing (Nat.lt_succ_self _)
  unfold parse
  split
  · rename_i marked
    rw [marked] at no_mark
    simp at no_mark
  · exact congrArg (Option.map (·.root)) read

/-- Lines can be put together in any number and order. -/
theorem lines_make_a_document (given : ∀ entry ∈ entries, ∃ line, IsLine entry.1 entry.2 line) :
    ∃ document : String, IsDocument entries document.toList := by
  suffices made : ∃ text, IsDocument entries text by
    obtain ⟨text, document⟩ := made
    exact ⟨String.ofList text, by rwa [String.toList_ofList]⟩
  induction entries with
  | nil => exact ⟨[], .empty⟩
  | cons entry rest ih =>
    obtain ⟨⟨line, first⟩, others⟩ := List.forall_mem_cons.mp given
    obtain ⟨text, document⟩ := ih others
    exact ⟨_, .line first (.inl rfl) document⟩

end Documents

end CloudTerminal.Toml
