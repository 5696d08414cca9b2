import CloudTerminal.Session

/-!
The shell around a session: it takes lines of bytes, and shows a header, prompts, what the lines show, and the
status line whenever it has changed. It ends with its input, at an exit word, or at a line that is not UTF-8.
-/

namespace CloudTerminal.Shell

/-- `EXIT_WORDS`: the words that end the shell, each alone on a line. -/
def exitWords : List String := ["exit", "logout"]

/-- `CLEAR_SCREEN`: the code that clears the screen and moves to its first place. -/
def clearScreen : String := "\x1b[2J\x1b[H"

/-- `write_header`: the greeting and the status line. -/
def header (session : Session) : String :=
  s!"{Session.welcome}\n[{session.summary.text}]\n\n"

/-- `write_prompt`: the prompt for a line. -/
def prompt (session : Session) : String := s!"{session.config.identity}:{session.prompt}$ "

/-- Whether a line ends the shell. -/
def isExit (line : String) : Bool :=
  exitWords.contains (String.ofList (Text.trim Text.isBlank line.toList))

/-- What is shown for a line that has been carried out, in front of the status line and the prompt. -/
def echo (line : String) (logged? : Option LogEntry) (after : Session) : String :=
  match logged? with
  | some entry => if entry.output = "" then "" else entry.output ++ "\n"
  | none => if (Line.parse line).isNone then "" else clearScreen ++ header after

/-- Carries out a line. Answers what is shown for it, the next prompt included. -/
def respond (clock : String) (session : Session) (line : String) : String × Session :=
  let (logged?, after) := session.execute clock line
  let status := if after.summary = session.summary then "" else s!"[{after.summary.text}]\n"
  (echo line logged? after ++ status ++ prompt after, after)

/-- What the shell does with a line of bytes. -/
inductive Step where
  /-- It shows an output and waits for the next line. -/
  | goOn (output : String) (session : Session)
  /-- It ends. -/
  | leave
  /-- It cannot read the line. -/
  | unreadable

/-- Takes a line of bytes without its ending. -/
def step (clock : String) (session : Session) (line : List UInt8) : Step :=
  match String.fromUTF8? line.toByteArray with
  | none => .unreadable
  | some line =>
    if isExit line then .leave
    else
      let (output, session) := respond clock session line
      .goOn output session

/-- What the shell has shown, the session that it leaves, and whether it could read all its input. -/
structure Transcript where
  output : String
  session : Session
  readable : Bool

/-- Takes lines, each at the time that the clock shows for it, until one ends the shell. -/
def takeLines (session : Session) : List (String × List UInt8) → Transcript
  | [] => { output := "\n", session, readable := true }
  | (clock, line) :: rest =>
    match step clock session line with
    | .unreadable => { output := "", session, readable := false }
    | .leave => { output := "\n", session, readable := true }
    | .goOn output session =>
      let transcript := takeLines session rest
      { transcript with output := output ++ transcript.output }

/-- A line without the carriage return at its end. -/
def withoutReturn (line : List UInt8) : List UInt8 :=
  if line.getLast? = some 13 then line.dropLast else line

/-- The lines of an input. They end at line feeds, and a carriage return in front of a line feed belongs to
the ending. What follows the last line feed is a line only if it is not empty. -/
def lines (input : List UInt8) : List (List UInt8) :=
  let pieces := Text.splitAll (· == 10) input
  pieces.dropLast.map withoutReturn ++ (pieces.getLast?.filter (!·.isEmpty)).toList

/-- Runs the shell over an input, with a clock that shows a time for every line. -/
def runAt (times : Nat → String) (session : Session) (input : List UInt8) : Transcript :=
  let transcript := takeLines session ((lines input).mapIdx fun n line => (times n, line))
  { transcript with output := header session ++ prompt session ++ transcript.output }

/-- `shell::run`: runs the shell over an input, with a clock that stands still. -/
def run (clock : String) (session : Session) (input : List UInt8) : Transcript :=
  runAt (fun _ => clock) session input

end CloudTerminal.Shell
