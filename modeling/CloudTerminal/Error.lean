import CloudTerminal.Instance.Status
import CloudTerminal.Repository.Status

/-!
Everything that can go wrong, as causes. `Error.message` is the only place where a cause is put into words.
-/

namespace CloudTerminal

/-- `SimError`: why a command, a change of the store or the reading of a configuration was refused. -/
inductive Error where
  /-- No command has this name. -/
  | unknownCommand (word : String)
  /-- The command has subcommands, and this is none of them. -/
  | unknownSubcommand (command word usage : String)
  /-- The command needs more arguments. -/
  | missingArgument (command usage : String)
  /-- The command takes fewer arguments. -/
  | surplusArgument (command usage : String)
  /-- No instance type has this name. -/
  | unknownInstanceType (word : String)
  /-- The name cannot be that of a key file. -/
  | invalidKeyName (name : String)
  /-- The target of a login is not of the form `user@host`. -/
  | invalidLogin (target usage : String)
  /-- The name cannot be that of a directory to clone into. -/
  | invalidDirectoryName (name : String)
  /-- The URL ends in nothing that could name a directory. -/
  | noDirectoryName (url usage : String)
  /-- The home directory has a fixed entry of this name. -/
  | occupiedDirectory (name : String)
  /-- The home directory has nothing at this path. -/
  | noSuchPath (path : String)
  /-- The host to reach has no address. -/
  | unknownHost (host : String)
  /-- The text is not a URL; the command is the one that reports it. -/
  | malformedUrl (command url : String)
  /-- The host of a URL has no address; the command is the one that reports it. -/
  | unresolvedHost (command host : String)
  /-- A directory already holds an entry of this name. -/
  | duplicateName (label name : String)
  /-- A directory holds no entry of this name. -/
  | notFound (label name : String)
  /-- The instance is in the power state that it was to enter. -/
  | alreadyPowered (name : String) (power : Power)
  /-- The clone of the repository is over. -/
  | alreadyResolved (name : String) (status : CloneStatus)
  /-- A clone cannot end in this status. -/
  | cannotResolve (name : String) (outcome : CloneStatus)
  /-- A clone of the repository is already waiting. -/
  | pendingClone (name : String)
  /-- A change that its author refuses for a reason of its own. -/
  | refused (reason : String)
  /-- A configuration field holds nothing but blanks. -/
  | emptyField (field : String)
  /-- The number of echo requests is zero or above the limit. -/
  | pingCountOutOfRange (limit : Nat)
  /-- The text is not a configuration in TOML. -/
  | malformedToml
  /-- The configuration in a file is refused. -/
  | inFile (file : String) (cause : Error)
  /-- The file does not exist. -/
  | noSuchFile
  /-- The file is a directory. -/
  | isDirectory
  /-- The bytes are not UTF-8. -/
  | notUtf8
  deriving DecidableEq

namespace Error

/-- What is shown for an error. -/
def message : Error → String
  | unknownCommand word => s!"command not found: {word}"
  | unknownSubcommand command word usage => s!"{command}: unknown subcommand '{word}'\nusage: {usage}"
  | missingArgument command usage => s!"{command}: missing argument\nusage: {usage}"
  | surplusArgument command usage => s!"{command}: too many arguments\nusage: {usage}"
  | unknownInstanceType word =>
    let expected := ", ".intercalate (InstanceType.all.map (·.text))
    s!"invalid type '{word}' (expected one of: {expected})"
  | invalidKeyName name => s!"ssh-keygen: invalid key name '{name}'"
  | invalidLogin target usage => s!"ssh: invalid host syntax '{target}'\nusage: {usage}"
  | invalidDirectoryName name => s!"fatal: invalid directory name '{name}'"
  | noDirectoryName url usage =>
    s!"fatal: could not derive a directory name from '{url}'\nusage: {usage}"
  | occupiedDirectory name => s!"fatal: destination path '{name}' already exists in the home directory"
  | noSuchPath path => s!"ls: cannot access '{path}': No such file or directory"
  | unknownHost host => s!"ping: {host}: Name or service not known"
  | malformedUrl command url => s!"{command}: URL using bad/illegal format: {url}"
  | unresolvedHost command host => s!"{command}: could not resolve host: {host}"
  | duplicateName label name => s!"{label} '{name}' already exists"
  | notFound label name => s!"{label} '{name}' not found"
  | alreadyPowered name power => s!"instance '{name}' is already {power.text}"
  | alreadyResolved name status => s!"repository '{name}' already {status.text}"
  | cannotResolve name outcome => s!"repository '{name}' cannot resolve to {outcome.text}"
  | pendingClone name => s!"repository '{name}' already has a pending clone"
  | refused reason => reason
  | emptyField field => s!"config error: {field} must not be empty"
  | pingCountOutOfRange limit => s!"config error: ping_count must be between 1 and {limit}"
  | malformedToml => "TOML parse error"
  | inFile file cause => s!"config error: {file}: {cause.message}"
  | noSuchFile => "I/O error: No such file or directory (os error 2)"
  | isDirectory => "I/O error: Is a directory (os error 21)"
  | notUtf8 => "I/O error: stream did not contain valid UTF-8"

end Error

end CloudTerminal
