import CloudTerminal.Session.Log
import CloudTerminal.Terminal

/-!
Sessions. A line that is not blank first lets the clones that wait advance, is then carried out, and is
logged with what it shows, be that an answer or an error. Only `clear` is not logged: it empties the log.
-/

namespace CloudTerminal

/-- The state of a session. -/
structure Session where
  registry : Registry := Terminal.registry
  config : Config
  world : World
  log : Log := {}

namespace Session

/-- `Session::new`: starts a session. The identifiers come from the seed of the settings, or from `entropy`, which
may be any random source, if they have none. -/
def start (config : Config) (entropy : Random.Source) : Session :=
  { config, world := { ids := .ofSeed? config.seed entropy } }

/-- `WELCOME_BANNER`: the greeting of a session. -/
def welcome : String :=
  "Welcome to Cloud Terminal Simulator v2.0\nType 'help' to see available commands"

/-- The path in the prompt. -/
def prompt (session : Session) : String := session.config.home

/-- The counts for the status line. -/
def summary (session : Session) : Summary := session.world.store.summary

/-- What a line shows, or nothing if it clears the screen. -/
def shown? : Except Error Reply → Option String
  | .ok .clear => none
  | .ok reply => some reply.rendered
  | .error e => some e.message

/-- `Session::execute`: carries out a line at the time that the clock shows. Answers the new entry of the
log, which blank lines and `clear` do not have. -/
def execute (session : Session) (clock line : String) : Option LogEntry × Session :=
  match Line.parse line with
  | none => (none, session)
  | some words =>
    let setting := { config := session.config, clock }
    let (result, world) := session.registry.run setting session.world.tick.2 words
    match shown? result with
    | none => (none, { session with world, log := .empty })
    | some output =>
      let entry := { input := line, output, timestamp := clock }
      (some entry, { session with world, log := session.log.append entry })

end Session

end CloudTerminal
