import CloudTerminal.Command
import CloudTerminal.Digest.Sha256
import CloudTerminal.Home
import CloudTerminal.Repository.Url

/-!
The command about repositories, with its subcommands to clone one, to list them and to show one.
-/

namespace CloudTerminal.Repository

def manual : Manual where
  name := "git"
  summary := "Clone and inspect repositories"
  usage := "git clone <url> [name] | git list | git status <name>"
  category := "git"

/-- The usage of the clone alone. -/
def cloneUsage : String := "git clone <url> [name]"

/-- The directory to clone into: the one that is given, or the one that the URL names. -/
def directoryFor (url : String) : Option String → Except Error String
  | some name => if isValidDirectory name then .ok name else .error (.invalidDirectoryName name)
  | none =>
    match directoryOfUrl? url with
    | some name => .ok name
    | none => .error (.noDirectoryName url cloneUsage)

/-- The extent of the simulated transfer of a clone. -/
structure Transfer where
  objects : Nat
  kibibytes : Nat

namespace Transfer

/-- The transfer of a URL, which its digest decides. -/
def ofUrl (url : String) : Transfer :=
  let digest := Digest.ofText url
  let objects := 20 + Digest.pairAt digest 0 % 2000
  { objects, kibibytes := objects * 3 + (Digest.byteAt digest 2).toNat }

/-- The number of deltas among the objects. -/
def deltas (transfer : Transfer) : Nat := transfer.objects * 2 / 5

/-- `transfer_progress`: what is shown of a transfer. -/
def lines (transfer : Transfer) : List String :=
  let { objects, kibibytes } := transfer
  [s!"remote: Enumerating objects: {objects}, done.",
    s!"remote: Counting objects: 100% ({objects}/{objects}), done.",
    s!"Receiving objects: 100% ({objects}/{objects}), {kibibytes} KiB, done.",
    s!"Resolving deltas: 100% ({transfer.deltas}/{transfer.deltas}), done."]

end Transfer

/-- What is shown of a clone when it begins. -/
def cloneLines (url name : String) (delay : Nat) : List String :=
  s!"Cloning into '{name}'..." ::
    if 0 < delay then [s!"Clone in progress. Check with 'git status {name}'."]
    else if cloneOutcome url = .cloned then (Transfer.ofUrl url).lines
    else [s!"fatal: repository '{url}' does not exist"]

/-- `GitCmd::clone_repo` begins a clone: it adds the repository and schedules the end of its clone. If that cannot
be scheduled, the repository is taken out again. -/
def clone (setting : Setting) (world : World) (url name : String) : Outcome :=
  match world.store.repositories.add (begin name url) with
  | .error e => (.error e, world)
  | .ok repositories =>
    let delay := setting.config.cloneDelay
    match world.clones.schedule repositories name delay (cloneOutcome url) with
    | .ok (repositories, clones) =>
      (.ok (.text ("\n".intercalate (cloneLines url name delay))),
        { world with store.repositories := repositories, clones })
    | .error e =>
      match repositories.remove name with
      | .error _ => (.error e, { world with store.repositories := repositories })
      | .ok (_, repositories) => (.error e, { world with store.repositories := repositories })

/-- Carries out `git clone` with the arguments behind these words. -/
def runClone (setting : Setting) (world : World) (arguments : List String) : Outcome :=
  match manual.oneArgumentOrTwo arguments with
  | .error e => (.error e, world)
  | .ok (url, name?) =>
    match directoryFor url name? with
    | .error e => (.error e, world)
    | .ok name =>
      if Home.isFixed name then (.error (.occupiedDirectory name), world)
      else clone setting world url name

/-- The answer of the listing. -/
def listing (store : Store) : Reply :=
  match store.repositories.toList with
  | [] => .text "No repositories. Use 'git clone <url>' to clone one."
  | repositories =>
    .table ["NAME", "STATUS", "URL"] (repositories.map fun r => [r.name, r.status.text, r.url])

/-- What is shown of a repository in a status. -/
def detail : CloneStatus → String
  | .cloning => "Clone in progress."
  | .cloned => "On branch main\nnothing to commit, working tree clean"
  | .failed => "Clone failed."

/-- What is shown of a repository. -/
def description (r : Repository) : String :=
  "\n".intercalate [s!"Repository: {r.name}", s!"  URL:    {r.url}", s!"  Status: {r.status.text}",
    detail r.status]

/-- Answers `git list` with the arguments behind these words. -/
def viewList (store : Store) (arguments : List String) : Except Error Reply :=
  (manual.noArgument arguments).map fun _ => listing store

/-- Answers `git status` with the arguments behind these words. -/
def viewStatus (store : Store) (arguments : List String) : Except Error Reply :=
  match manual.oneArgument arguments with
  | .error e => .error e
  | .ok name => (store.repositories.find name).map fun r => .text (description r)

def git : Command := { manual with
  run := fun setting world arguments =>
    match arguments with
    | [] => (.error (.missingArgument manual.name manual.usage), world)
    | "clone" :: rest => runClone setting world rest
    | "list" :: rest => (viewList world.store rest, world)
    | "status" :: rest => (viewStatus world.store rest, world)
    | word :: _ => (.error (.unknownSubcommand manual.name word manual.usage), world) }

/-- `register_git_commands`: the command about repositories. -/
def commands : List Command := [git]

end CloudTerminal.Repository
