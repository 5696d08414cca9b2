import CloudTerminal.Text.Numeral

/-!
The four kinds of quoted texts in TOML: basic ones with escapes and literal ones without, on one line or
on several. Each reader starts behind the opening quotes and answers the text and what follows the closing
quotes.
-/

namespace CloudTerminal.Toml

/-- The blanks within a line. -/
def isInlineBlank (c : Char) : Bool := c == ' ' || c == '\t'

/-- The characters of a comment: all but the control characters, of which only the tab is allowed. -/
def isPrintable (c : Char) : Bool := c == '\t' || (' ' ≤ c && c != '\x7f')

/-- What follows a line ending, a line feed or a carriage return and a line feed. -/
def afterNewline? : List Char → Option (List Char)
  | '\n' :: rest => some rest
  | '\r' :: '\n' :: rest => some rest
  | _ => none

/-- The character that a one-letter escape stands for. -/
def escaped? : Char → Option Char
  | 'b' => some '\x08'
  | 't' => some '\t'
  | 'n' => some '\n'
  | 'f' => some '\x0c'
  | 'r' => some '\r'
  | '"' => some '"'
  | '\\' => some '\\'
  | _ => none

/-- The character of a code point, which surrogates are not. -/
def scalar? (code : Nat) : Option Char :=
  if code.isValidChar then some (Char.ofNat code) else none

/-- Reads what follows the backslash of an escape. -/
def readEscape : List Char → Option (Char × List Char)
  | 'u' :: rest => readCode 4 rest
  | 'U' :: rest => readCode 8 rest
  | c :: rest => (escaped? c).map (·, rest)
  | [] => none
where
  /-- Reads a code point in exactly `width` hexadecimal digits. -/
  readCode (width : Nat) (rest : List Char) : Option (Char × List Char) :=
    if rest.length < width then none
    else ((Text.readDigits? 16 (rest.take width)).bind scalar?).map (·, rest.drop width)

/-- Puts a character in front of a text that has been read. -/
def withFirst (c : Char) (read : Option (List Char × List Char)) : Option (List Char × List Char) :=
  read.map fun (text, rest) => (c :: text, rest)

theorem length_readEscape {text rest : List Char} {c : Char}
    (read : readEscape text = some (c, rest)) : rest.length < text.length := by
  have code (width : Nat) (text : List Char) (read : readEscape.readCode width text = some (c, rest)) :
      rest.length ≤ text.length := by
    unfold readEscape.readCode at read
    split at read
    · cases read
    · obtain ⟨_, _, same⟩ := Option.map_eq_some_iff.1 read
      cases same
      simp
  unfold readEscape at read
  split at read
  · exact Nat.lt_succ_of_le (code _ _ read)
  · exact Nat.lt_succ_of_le (code _ _ read)
  · obtain ⟨_, _, same⟩ := Option.map_eq_some_iff.1 read
    cases same
    simp
  · cases read

/-- Reads a literal text on one line. -/
def readLiteral (text : List Char) : Option (List Char × List Char) :=
  match text.dropWhile (fun c => isPrintable c && c != '\'') with
  | '\'' :: rest => some (text.takeWhile (fun c => isPrintable c && c != '\''), rest)
  | _ => none

/-- Reads a basic text on one line. -/
def readBasic (text : List Char) : Option (List Char × List Char) :=
  match text with
  | [] => none
  | '"' :: rest => some ([], rest)
  | '\\' :: rest =>
    match read : readEscape rest with
    | none => none
    | some (c, after) =>
      have := length_readEscape read
      withFirst c (readBasic after)
  | c :: rest => if isPrintable c then withFirst c (readBasic rest) else none
termination_by text.length
decreasing_by all_goals simp only [List.length_cons]; omega

/-- Reads the quotes that end a text on several lines, up to two of which belong to the text. -/
def closing? (quote : Char) (text : List Char) : Option (List Char × List Char) :=
  let quotes := (text.takeWhile (· == quote)).take 5
  if 3 ≤ quotes.length then some (quotes.drop 3, text.drop quotes.length) else none

/-- Reads a literal text on several lines. Every line ending counts as a line feed. -/
def readLiteralLines : List Char → Option (List Char × List Char)
  | [] => none
  | '\r' :: '\n' :: rest => withFirst '\n' (readLiteralLines rest)
  | c :: rest =>
    match closing? '\'' (c :: rest) with
    | some found => some found
    | none => if c = '\n' ∨ isPrintable c then withFirst c (readLiteralLines rest) else none

/-- Reads a basic text on several lines. A backslash at the end of a line takes away the blanks and line
endings up to the next other character; `folding` says that this is going on. -/
def readBasicLines (folding : Bool) (text : List Char) : Option (List Char × List Char) :=
  match text with
  | [] => none
  | '\r' :: '\n' :: rest =>
    if folding then readBasicLines true rest else withFirst '\n' (readBasicLines false rest)
  | '\\' :: rest =>
    if (afterNewline? (rest.dropWhile isInlineBlank)).isSome then readBasicLines true rest
    else
      match read : readEscape rest with
      | none => none
      | some (c, after) =>
        have := length_readEscape read
        withFirst c (readBasicLines false after)
  | c :: rest =>
    if folding && (isInlineBlank c || c == '\n') then readBasicLines true rest
    else
      match closing? '"' (c :: rest) with
      | some found => some found
      | none => if c = '\n' ∨ isPrintable c then withFirst c (readBasicLines false rest) else none
termination_by text.length
decreasing_by all_goals simp only [List.length_cons]; omega

/-- A text on several lines does not begin with the line ending that follows its opening quotes. -/
def skipFirstNewline (text : List Char) : List Char := (afterNewline? text).getD text

/-- Reads a quoted text on one line, from its opening quote on. -/
def readQuoted : List Char → Option (List Char × List Char)
  | '"' :: rest => readBasic rest
  | '\'' :: rest => readLiteral rest
  | _ => none

/-- Reads a quoted text of any kind, from its opening quotes on. -/
def readQuotedLines : List Char → Option (List Char × List Char)
  | '"' :: '"' :: '"' :: rest => readBasicLines false (skipFirstNewline rest)
  | '\'' :: '\'' :: '\'' :: rest => readLiteralLines (skipFirstNewline rest)
  | text => readQuoted text

end CloudTerminal.Toml
