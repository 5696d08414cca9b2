import CloudTerminal.Launch

/-!
The program. It reads the settings file and the standard input, and writes what the shell shows after every
line. Its clock shows the time since the program has started.
-/

namespace CloudTerminal.Main

/-- A time in milliseconds, in hours, minutes and seconds. -/
def clockText (milliseconds : Nat) : String :=
  let seconds := milliseconds / 1000
  ":".intercalate ([seconds / 3600, seconds / 60 % 60, seconds % 60].map fun n =>
    String.ofList (Text.paddedDigits 10 2 n))

/-- What is found at a path. -/
def contentOf (path : String) : IO Config.FileContent := do
  try
    return .bytes (← IO.FS.readBinFile path)
  catch
    | .noFileOrDirectory .. => return .missing
    | .inappropriateType .. => return .directory
    | other => throw other

/-- Reads the bytes up to the next line feed or the end of the input, and tells whether there was a line
feed. -/
partial def readLine (input : IO.FS.Stream) (line : Array UInt8) : IO (Array UInt8 × Bool) := do
  let bytes ← input.read 1
  match bytes.toList with
  | [] => return (line, false)
  | byte :: _ => if byte = 10 then return (line, true) else readLine input (line.push byte)

/-- Takes lines until the shell ends, and answers the exit code. -/
partial def converse (input output : IO.FS.Stream) (start : Nat) (session : Session) : IO UInt32 := do
  let (bytes, isTerminated) ← readLine input #[]
  let clock := clockText ((← IO.monoMsNow) - start)
  let step :=
    if isTerminated then Shell.step clock session (Shell.withoutReturn bytes.toList)
    else if bytes.isEmpty then .leave
    else Shell.step clock session bytes.toList
  match step with
  | .unreadable =>
    IO.eprintln "Error: stream did not contain valid UTF-8"
    return 1
  | .leave =>
    output.putStr "\n"
    return 0
  | .goOn text session =>
    output.putStr text
    output.flush
    converse input output start session

/-- A random source whose key is drawn from the system. -/
def entropy : IO Random.Source := do
  let bytes ← IO.getRandomBytes 32
  return { key := .ofFn fun position => Random.wordOfBytes ((bytes.toList.drop (4 * position)).take 4) }

/-- Runs the program with its arguments, and answers the exit code. -/
def run (arguments : List String) : IO UInt32 := do
  let file? := Launch.configFile? arguments (← IO.getEnv Launch.variableName)
  let found? ← file?.mapM fun file => return (file, ← contentOf file)
  match Launch.config found? with
  | .error e =>
    IO.eprintln s!"Error: {e.message}"
    return 1
  | .ok config =>
    let session := Session.start config (← entropy)
    let output ← IO.getStdout
    output.putStr (Shell.header session ++ Shell.prompt session)
    output.flush
    converse (← IO.getStdin) output (← IO.monoMsNow) session

end CloudTerminal.Main

def main (arguments : List String) : IO UInt32 := CloudTerminal.Main.run arguments
