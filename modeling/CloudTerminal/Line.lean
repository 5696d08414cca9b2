import CloudTerminal.Text.Split

/-!
Command lines. A line is cut into words at blanks; the first word names the command. There is no quoting.
-/

namespace CloudTerminal

/-- `ParsedLine`: the words of a line that is not blank. -/
structure Line where
  command : String
  arguments : List String
  deriving DecidableEq

/-- The words of a line, or nothing if it is blank. -/
def Line.parse (line : String) : Option Line :=
  match Text.words line.toList with
  | [] => none
  | command :: arguments =>
    some { command := String.ofList command, arguments := arguments.map String.ofList }

end CloudTerminal
