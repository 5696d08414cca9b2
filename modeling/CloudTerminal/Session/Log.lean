/-!
The log of a session: the lines that were carried out, each with its output. Entries are only ever appended,
or all removed at once.
-/

namespace CloudTerminal

/-- A line that was carried out. -/
structure LogEntry where
  /-- The line as it was typed. -/
  input : String
  /-- What was shown for it. -/
  output : String
  /-- The clock text at that time. -/
  timestamp : String
  deriving DecidableEq

/-- `SessionLog`: the entries in the order in which they were appended. -/
structure Log where
  entries : List LogEntry := []
  deriving DecidableEq

namespace Log

/-- A log without entries. -/
def empty : Log := {}

/-- `SessionLog::append`: appends an entry. -/
def append (log : Log) (entry : LogEntry) : Log := ⟨log.entries ++ [entry]⟩

/-- `SessionLog::len`: the number of entries. -/
def size (log : Log) : Nat := log.entries.length

/-- `SessionLog::is_empty`: whether there are no entries. -/
def isEmpty (log : Log) : Bool := log.entries.isEmpty

@[simp] theorem entries_append (log : Log) (entry : LogEntry) :
    (log.append entry).entries = log.entries ++ [entry] := rfl

@[simp] theorem entries_empty : empty.entries = [] := rfl

end Log

end CloudTerminal
