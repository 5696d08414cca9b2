import CloudTerminal.Toml.DateTime
import CloudTerminal.Toml.Number
import CloudTerminal.Toml.Quoted
import CloudTerminal.Toml.Value

/-!
Reading TOML documents. A document is a sequence of lines, each of them empty, a header or a key with its
value, and each with a comment if need be. Every reader answers what it has read and what follows.
-/

namespace CloudTerminal.Toml

/-- The number of levels in which arrays and tables in braces may be nested, and the number of parts that
a key may have. -/
def levelLimit : Nat := 79

/-- The text behind the blanks at its start. -/
def skipBlanks (text : List Char) : List Char := text.dropWhile isInlineBlank

/-- The text behind blanks, comments and line endings at its start. -/
def skipLines (inComment : Bool) : List Char → List Char
  | [] => []
  | '\n' :: rest => skipLines false rest
  | '\r' :: '\n' :: rest => skipLines false rest
  | c :: rest =>
    if inComment then if isPrintable c then skipLines true rest else c :: rest
    else if c = '#' then skipLines true rest
    else if isInlineBlank c then skipLines false rest
    else c :: rest

/-- The text of the next line, after blanks and a comment at most. -/
def finishLine? (text : List Char) : Option (List Char) :=
  let rest :=
    match skipBlanks text with
    | '#' :: comment => comment.dropWhile isPrintable
    | other => other
  if rest.isEmpty then some [] else afterNewline? rest

/-- The characters of words that stand for themselves: parts of keys without quotes. -/
def isBare (c : Char) : Bool := c.isAlphanum || c == '-' || c == '_'

/-- The characters of numbers, points in time and truth values. -/
def isScalarChar (c : Char) : Bool := c.isAlphanum || ['+', '-', '.', '_', ':'].contains c

/-- A key: the tables above it, and its own name. -/
structure Key where
  path : List String
  name : String

/-- Reads a part of a key. -/
def readPart (text : List Char) : Option (String × List Char) :=
  let word := text.takeWhile isBare
  if word.isEmpty then (readQuoted text).map fun (part, rest) => (String.ofList part, rest)
  else some (String.ofList word, text.dropWhile isBare)

/-- Reads a key of at most `limit` parts with dots between them, and the blanks around it. -/
def readKey : Nat → List Char → Option (Key × List Char)
  | 0, _ => none
  | limit + 1, text =>
    match readPart (skipBlanks text) with
    | none => none
    | some (part, rest) =>
      match skipBlanks rest with
      | '.' :: rest =>
        (readKey limit rest).map fun (key, rest) => ({ key with path := part :: key.path }, rest)
      | rest => some ({ path := [], name := part }, rest)

/-- The value that a word stands for. -/
def scalarOf? (word : List Char) : Option Value :=
  if word = "true".toList then some (.boolean true)
  else if word = "false".toList then some (.boolean false)
  else if DateTime.isPoint word then some (.dateTime (String.ofList word))
  else
    match Number.readInteger? word with
    | some n => some (.integer n)
    | none => if Number.isFloat word then some (.float (String.ofList word)) else none

/-- Reads a number, a point in time or a truth value. Between a day and a time there may be a space. -/
def readScalar (text : List Char) : Option (Value × List Char) :=
  let word := text.takeWhile isScalarChar
  let alone := (scalarOf? word).map (·, text.dropWhile isScalarChar)
  match text.dropWhile isScalarChar with
  | ' ' :: after =>
    let time := after.takeWhile isScalarChar
    if DateTime.isDay word && DateTime.isTimeWithOffset time then
      some (.dateTime (String.ofList (word ++ ' ' :: time)), after.dropWhile isScalarChar)
    else alone
  | _ => alone

/-- Reads a key, an equals sign and a value. -/
def readPair (readValue : List Char → Option (Value × List Char)) (text : List Char) :
    Option (Key × Value × List Char) :=
  match readKey levelLimit text with
  | some (key, '=' :: rest) =>
    (readValue (skipBlanks rest)).map fun (value, rest) => (key, value, rest)
  | _ => none

/-- Reads the items of an array and its closing bracket. There are at most `limit` items. -/
def readItems (readValue : List Char → Option (Value × List Char)) :
    Nat → List Char → Option (List Value × List Char)
  | 0, _ => none
  | limit + 1, text =>
    match skipLines false text with
    | ']' :: rest => some ([], rest)
    | text =>
      match readValue text with
      | none => none
      | some (item, rest) =>
        match skipLines false rest with
        | ',' :: rest => (readItems readValue limit rest).map fun (items, rest) => (item :: items, rest)
        | ']' :: rest => some ([item], rest)
        | _ => none

/-- Reads the entries of a table in braces and its closing brace. There are at most `limit` entries. -/
def readEntries (readValue : List Char → Option (Value × List Char)) :
    Nat → Entries → List Char → Option (Entries × List Char)
  | 0, _, _ => none
  | limit + 1, entries, text =>
    match readPair readValue text with
    | none => none
    | some (key, value, rest) =>
      match entries.insert key.name value key.path with
      | none => none
      | some entries =>
        match skipBlanks rest with
        | ',' :: rest => readEntries readValue limit entries rest
        | '\x7d' :: rest => some (entries, rest)
        | _ => none

/-- Reads a value in which arrays and tables are nested in at most `levels` levels. -/
def readValue : Nat → List Char → Option (Value × List Char)
  | levels + 1, '[' :: rest =>
    (readItems (readValue levels) rest.length rest).map fun (items, rest) => (.array items, rest)
  | levels + 1, '\x7b' :: rest =>
    match skipBlanks rest with
    | '\x7d' :: rest => some (.table .braces [], rest)
    | _ =>
      (readEntries (readValue levels) rest.length [] rest).map fun (entries, rest) =>
        (.table .braces entries, rest)
  | _, text =>
    if text.head?.any fun c => c == '"' || c == '\'' then
      (readQuotedLines text).map fun (string, rest) => (.string (String.ofList string), rest)
    else readScalar text

/-- What the lines so far have stated: all tables, and the path of the one that the next keys go into. -/
structure Draft where
  root : Entries := []
  path : List String := []

/-- Carries out the statement at the start of a line without blanks in front. -/
def readStatement (draft : Draft) : List Char → Option (Draft × List Char)
  | '[' :: '[' :: rest =>
    match readKey levelLimit rest with
    | some (key, ']' :: ']' :: rest) =>
      (draft.root.changeAt (·.openElement key.name) key.path).map fun root =>
        ({ root, path := key.path ++ [key.name] }, rest)
    | _ => none
  | '[' :: rest =>
    match readKey levelLimit rest with
    | some (key, ']' :: rest) =>
      (draft.root.changeAt (·.openTable key.name) key.path).map fun root =>
        ({ root, path := key.path ++ [key.name] }, rest)
    | _ => none
  | text =>
    match readPair (readValue levelLimit) text with
    | some (key, value, rest) =>
      (draft.root.changeAt (·.insert key.name value key.path) draft.path).map fun root =>
        ({ draft with root }, rest)
    | none => none

/-- Reads at most `limit` lines, up to the end of the text. -/
def readLines : Nat → Draft → List Char → Option Draft
  | 0, _, _ => none
  | limit + 1, draft, text =>
    if text.isEmpty then some draft
    else
      match finishLine? text with
      | some rest => readLines limit draft rest
      | none =>
        match readStatement draft (skipBlanks text) with
        | none => none
        | some (draft, rest) =>
          match finishLine? rest with
          | none => none
          | some rest => readLines limit draft rest

/-- The root table of a document, which may begin with a byte order mark. -/
def parse (document : String) : Option Entries :=
  let text :=
    match document.toList with
    | '\ufeff' :: rest => rest
    | text => text
  (readLines (text.length + 1) {} text).map (·.root)

end CloudTerminal.Toml
