import CloudTerminal.Config.Decode
import CloudTerminal.Session.Shell

/-!
The start of the program: where the settings come from, and what the program answers to its input.
-/

namespace CloudTerminal.Launch

/-- The variable that may name the settings file. -/
def variableName : String := "CLOUDSIM_CONFIG"

/-- The settings file: the first argument, or else the value of the variable. -/
def configFile? (arguments : List String) (value? : Option String) : Option String :=
  arguments.head? <|> value?

/-- The settings in the settings file, or the default ones if there is no such file to be read. -/
def config (file? : Option (String × Config.FileContent)) : Except Error Config :=
  match file? with
  | none => .ok {}
  | some (file, content) => Config.ofFile file content

/-- What the program has written when it ends, and its exit code. -/
structure Ending where
  output : String
  code : Nat
  deriving DecidableEq

/-- Runs the program over an input, with a clock that stands still. Without valid settings it writes
nothing. -/
def run (file? : Option (String × Config.FileContent)) (entropy : Random.Source) (clock : String)
    (input : List UInt8) : Ending :=
  match config file? with
  | .error _ => { output := "", code := 1 }
  | .ok config =>
    let transcript := Shell.run clock (Session.start config entropy) input
    { output := transcript.output, code := if transcript.readable then 0 else 1 }

end CloudTerminal.Launch
