import CloudTerminal.Text.Split

/-!
Targets of logins, of the form `user@host`.
-/

namespace CloudTerminal

/-- Who logs in where. -/
structure Login where
  user : String
  host : String
  deriving DecidableEq

namespace Login

/-- Whether a text can be the name of a user: ASCII letters, digits, hyphens, underscores and dots. -/
def isValidUser (user : List Char) : Bool :=
  !user.isEmpty && user.all fun c => c.isAlphanum || ['-', '_', '.'].contains c

/-- Whether a text can be a host: ASCII letters, digits, hyphens and dots, with a letter or a digit at
both ends. -/
def isValidHost (host : List Char) : Bool :=
  let isMark (c : Char) : Bool := ['-', '.'].contains c
  !host.isEmpty && !host.head?.any isMark && !host.getLast?.any isMark &&
    host.all fun c => c.isAlphanum || isMark c

/-- `parse_target`: reads a target. -/
def parse (target : String) : Option Login :=
  match Text.cutFirst (· == '@') target.toList with
  | none => none
  | some (user, host) =>
    if isValidUser user && isValidHost host then
      some { user := String.ofList user, host := String.ofList host }
    else none

end Login

end CloudTerminal
