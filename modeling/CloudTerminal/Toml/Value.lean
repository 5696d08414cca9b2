/-!
The values of a TOML document, and how statements build the tables that hold them. A table remembers
which kind of statement made it, because that decides which later statements may extend it.
-/

namespace CloudTerminal.Toml

/-- What made a table. -/
inductive Origin where
  /-- A header `[a]`. -/
  | header
  /-- The header of a table inside it. -/
  | implied
  /-- A key with dots. -/
  | dotted
  /-- Braces. -/
  | braces
  deriving DecidableEq, Repr

/-- A value. Numbers other than integers and points in time stay as they are written. -/
inductive Value where
  | string (text : String)
  | integer (number : Int)
  | float (written : String)
  | boolean (truth : Bool)
  | dateTime (written : String)
  | array (items : List Value)
  | table (origin : Origin) (entries : List (String × Value))
  /-- Tables made by headers `[[a]]`, the latest one apart from the earlier ones. -/
  | tables (earlier : List (List (String × Value))) (latest : List (String × Value))

/-- The keys of a table with their values, in the order of their first statements. -/
abbrev Entries := List (String × Value)

namespace Entries

/-- Replaces the value of a key, or appends the key with its value. -/
def put (key : String) (value : Value) : Entries → Entries
  | [] => [(key, value)]
  | (k, v) :: rest => if k = key then (k, value) :: rest else (k, v) :: put key value rest

/-- Adds the value of a key that is below the tables named by `path`. A key has one value only, and of the
tables that exist only those made by dotted keys can be extended, or passed through on the way to
another one. -/
def insert (key : String) (value : Value) : List String → Entries → Option Entries
  | [], entries =>
    match entries.lookup key with
    | none => some (entries ++ [(key, value)])
    | some _ => none
  | table :: path, entries =>
    let extended : Option Value :=
      match entries.lookup table with
      | none => (insert key value path []).map (.table .dotted)
      | some (.table .dotted inner) => (insert key value path inner).map (.table .dotted)
      | some (.table .implied inner) =>
        if path = [] then none else (insert key value path inner).map (.table .implied)
      | some (.tables earlier latest) =>
        if path = [] then none else (insert key value path latest).map (.tables earlier)
      | some _ => none
    extended.map fun inner => entries.put table inner

/-- Changes the table that a header's path leads to. Tables missing on the way are implied by it, and of
repeated tables the latest is meant. -/
def changeAt (change : Entries → Option Entries) : List String → Entries → Option Entries
  | [], entries => change entries
  | table :: path, entries =>
    let changed : Option Value :=
      match entries.lookup table with
      | none => (changeAt change path []).map (.table .implied)
      | some (.table .braces _) => none
      | some (.table origin inner) => (changeAt change path inner).map (.table origin)
      | some (.tables earlier latest) => (changeAt change path latest).map (.tables earlier)
      | some _ => none
    changed.map fun inner => entries.put table inner

/-- Opens the table of a header `[key]`: a new one, or one that headers have only implied so far. -/
def openTable (key : String) (entries : Entries) : Option Entries :=
  match entries.lookup key with
  | none => some (entries ++ [(key, .table .header [])])
  | some (.table .implied inner) => some (entries.put key (.table .header inner))
  | some _ => none

/-- Opens a further table of a header `[[key]]`. -/
def openElement (key : String) (entries : Entries) : Option Entries :=
  match entries.lookup key with
  | none => some (entries ++ [(key, .tables [] [])])
  | some (.tables earlier latest) => some (entries.put key (.tables (earlier ++ [latest]) []))
  | some _ => none

end Entries

end CloudTerminal.Toml
