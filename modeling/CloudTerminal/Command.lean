import CloudTerminal.World

/-!
Commands: what they say about themselves, how they look at their arguments, and what they do. A command
that takes between `low` and `high` arguments refuses fewer as missing and more as surplus.
-/

namespace CloudTerminal

/-- What a command says about itself: `Command::name`, `description`, `usage` and `category`. -/
structure Manual where
  name : String
  summary : String
  usage : String
  category : String := "general"
  deriving DecidableEq

/-- A command. -/
structure Command extends Manual where
  run : Setting → World → List String → Outcome

/-- A command that changes nothing. -/
def Command.reading (manual : Manual)
    (view : Setting → Store → List String → Except Error Reply) : Command :=
  { manual with run := fun setting world arguments => (view setting world.store arguments, world) }

namespace Manual

/-- Why a number of arguments is refused by a command that takes at least `low`. -/
def refusal (manual : Manual) (low : Nat) (arguments : List String) : Error :=
  if arguments.length < low then .missingArgument manual.name manual.usage
  else .surplusArgument manual.name manual.usage

/-- `Command::check_arity`: takes from `low` to `high` arguments. -/
def between (manual : Manual) (low high : Nat) (arguments : List String) : Except Error Unit :=
  if low ≤ arguments.length ∧ arguments.length ≤ high then .ok ()
  else .error (manual.refusal low arguments)

/-- Takes no arguments. -/
def noArgument (manual : Manual) : List String → Except Error Unit
  | [] => .ok ()
  | arguments => .error (manual.refusal 0 arguments)

/-- Takes one argument. -/
def oneArgument (manual : Manual) : List String → Except Error String
  | [argument] => .ok argument
  | arguments => .error (manual.refusal 1 arguments)

/-- Takes one argument or none. -/
def optionalArgument (manual : Manual) : List String → Except Error (Option String)
  | [] => .ok none
  | [argument] => .ok (some argument)
  | arguments => .error (manual.refusal 0 arguments)

/-- Takes two arguments. -/
def twoArguments (manual : Manual) : List String → Except Error (String × String)
  | [first, second] => .ok (first, second)
  | arguments => .error (manual.refusal 2 arguments)

/-- Takes one argument and, if there is one, a second. -/
def oneArgumentOrTwo (manual : Manual) : List String → Except Error (String × Option String)
  | [first] => .ok (first, none)
  | [first, second] => .ok (first, some second)
  | arguments => .error (manual.refusal 1 arguments)

/-- `expect_subcommand`: takes a fixed word, and answers the arguments behind it. -/
def afterWord (manual : Manual) (word : String) : List String → Except Error (List String)
  | [] => .error (.missingArgument manual.name manual.usage)
  | first :: rest =>
    if first = word then .ok rest else .error (.unknownSubcommand manual.name first manual.usage)

end Manual

end CloudTerminal
