import CloudTerminal.Command
import CloudTerminal.Line

/-!
The commands that a line can name. They are kept in the order of their names, each name once, and the
command registered last under a name is the one that counts (`lookup_register`). `help` is known to every
registry.
-/

namespace CloudTerminal

/-- `CommandRegistry`: commands in the order of their names. -/
structure Registry where
  commands : List Command := []

namespace Registry

/-- Puts a command in its place, where it replaces one of the same name. -/
def place (command : Command) : List Command → List Command
  | [] => [command]
  | first :: rest =>
    if command.name = first.name then command :: rest
    else if command.name < first.name then command :: first :: rest
    else first :: place command rest

/-- `CommandRegistry::register`: registers a command. -/
def register (registry : Registry) (command : Command) : Registry :=
  ⟨place command registry.commands⟩

/-- Registers commands one after the other. -/
def registerAll (registry : Registry) (commands : List Command) : Registry :=
  commands.foldl register registry

/-- `CommandRegistry::get`: the command of the given name. -/
def lookup (registry : Registry) (name : String) : Option Command :=
  registry.commands.find? (·.name == name)

/-- `CommandRegistry::list_commands`: the names of the commands and what they do, in the order of the
names. -/
def list (registry : Registry) : List (String × String) :=
  registry.commands.map fun command => (command.name, command.summary)

/-- What `help` says about itself. -/
def helpManual : Manual where
  name := "help"
  summary := "Show the command reference"
  usage := "help [command]"

/-- `HELP_TEXT`: the reference of all commands. -/
def reference : String :=
  "\n".intercalate [
    "Available commands:",
    "",
    "System:",
    "  help [command]                 Show this reference, or one command's usage",
    "  clear                          Clear the screen",
    "  pwd                            Show current directory",
    "  ls [path]                      List files",
    "  status                         Show resource counts",
    "",
    "SSH:",
    "  ssh-keygen [name]              Generate a key pair",
    "  ssh-add <name>                 Add a key to the agent",
    "  ssh-list                       List keys",
    "  ssh-remove <name>              Delete a key",
    "  ssh <user@host>                Connect to a host",
    "",
    "Cloud:",
    "  create instance <name> <type>  Create an instance",
    "                                 (compute|database|storage|network|security)",
    "  instances list [type]          List instances",
    "  start instance <name>          Start a stopped instance",
    "  stop instance <name>           Stop a running instance",
    "  describe instance <name>       Show instance details",
    "  delete instance <name>         Delete an instance",
    "",
    "Git:",
    "  git clone <url> [name]         Clone a repository",
    "  git list                       List repositories",
    "  git status <name>              Show a repository's clone status",
    "",
    "Network:",
    "  ping <host>                    Send echo requests",
    "  ifconfig                       Show network interfaces",
    "  netstat                        Show network connections",
    "  curl <url>                     Fetch a URL",
    "  wget <url>                     Download a URL"]

/-- What a command says about itself, as `help` shows it. -/
def describe (manual : Manual) : String :=
  s!"{manual.name} ({manual.category})\n  {manual.summary}\n  Usage: {manual.usage}"

/-- `CommandRegistry::execute_help`: answers `help` with the reference, or with what one command says about
itself. -/
def help (registry : Registry) (arguments : List String) : Except Error Reply :=
  match helpManual.optionalArgument arguments with
  | .error e => .error e
  | .ok none => .ok (.text reference)
  | .ok (some name) =>
    if name = helpManual.name then .ok (.text (describe helpManual))
    else
      match registry.lookup name with
      | none => .error (.unknownCommand name)
      | some command => .ok (.text (describe command.toManual))

/-- `CommandRegistry::dispatch`: carries out a line. -/
def run (registry : Registry) (setting : Setting) (world : World) (line : Line) : Outcome :=
  if line.command = helpManual.name then (registry.help line.arguments, world)
  else
    match registry.lookup line.command with
    | none => (.error (.unknownCommand line.command), world)
    | some command => command.run setting world line.arguments

theorem lookup_register (registry : Registry) (command : Command) :
    (registry.register command).lookup command.name = some command := by
  obtain ⟨commands⟩ := registry
  simp only [register, lookup]
  induction commands with
  | nil => simp [place]
  | cons first rest ih =>
    unfold place
    split
    · simp
    · split
      · simp
      · rename_i other _
        simp [Ne.symm other, ih]

theorem lookup_register_of_ne (registry : Registry) (command : Command) {name : String}
    (other : name ≠ command.name) :
    (registry.register command).lookup name = registry.lookup name := by
  obtain ⟨commands⟩ := registry
  simp only [register, lookup]
  have skip : (command.name == name) = false := by simpa using Ne.symm other
  induction commands with
  | nil => simp [place, skip]
  | cons first rest ih =>
    unfold place
    split
    · rename_i same
      have skipFirst : (first.name == name) = false := by rw [← same]; exact skip
      simp [skip, skipFirst]
    · split
      · simp [List.find?_cons, skip]
      · simp [List.find?_cons, ih]

end Registry

end CloudTerminal
