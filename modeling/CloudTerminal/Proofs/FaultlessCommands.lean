import CloudTerminal.Proofs.DefaultNames
import CloudTerminal.Proofs.FaultlessHosts
import CloudTerminal.Proofs.HomeListing

/-!
The commands of the terminal with their limits looked at: the places of arguments and of entries that are
taken out, the running numbers of identifiers and of default names, and the numbers of a transfer. As long as
fewer identifiers and keys have been made than there are numbers for them (`HasRoom`), no line is at fault,
whatever it asks for (`line_is_faultless`).
-/

namespace CloudTerminal.Guarded

/-- A command, and how it is carried out when its limits are looked at. -/
structure Watched where
  command : Command
  run : Setting → World → List String → Guarded Outcome

namespace Watched

/-- A command that meets none of the limits. -/
def unlimited (command : Command) : Watched :=
  ⟨command, fun setting world arguments => .ok (command.run setting world arguments)⟩

/-- A command that reads its one argument at its place, and goes on with it. -/
def withOneArgument (command : Command) : Watched where
  command
  run setting world arguments := do
    match ← oneArgument command.toManual arguments with
    | .error e => return (.error e, world)
    | .ok argument => return command.run setting world [argument]

end Watched

section Home

/-- What `ls` answers. A path that does not exist is named as it stands among the arguments. -/
def ls (setting : Setting) (store : Store) (arguments : List String) : Guarded (Except Error Reply) :=
  match Home.lsManual.between 0 1 arguments with
  | .error e => .ok (.error e)
  | .ok _ =>
    match Home.list? store ((arguments.head?.map (Home.relative setting.config.home)).getD "") with
    | none => (item arguments 0).map fun path => .error (.noSuchPath path)
    | some [] => .ok (.ok .silent)
    | some lines => .ok (.ok (.text ("\n".intercalate lines)))

theorem ls_is_faultless (setting : Setting) (world : World) (arguments : List String) :
    ls setting world.store arguments = .ok (Home.ls.run setting world arguments).1 := by
  unfold ls Home.ls Command.reading
  rcases arguments with _ | ⟨path, _ | ⟨second, rest⟩⟩
  · -- Without an argument there is no path that could be named, but home exists.
    have listed := Home.home_is_listed_without_a_path world.store setting.config.home
    have parsed : Home.lsManual.optionalArgument [] = .ok none := rfl
    simp only [parsed, Option.getD_none, listed]
    rfl
  · have counted : Home.lsManual.between 0 1 [path] = .ok () := rfl
    have parsed : Home.lsManual.optionalArgument [path] = .ok (some path) := rfl
    have found : item [path] 0 = .ok path := rfl
    simp only [counted, parsed, found, List.head?_cons, Option.map_some, Option.getD_some]
    cases Home.list? world.store (Home.relative setting.config.home path) with
    | none => rfl
    | some lines => cases lines <;> rfl
  · have surplus : Home.lsManual.between 0 1 (path :: second :: rest) =
        .error (Home.lsManual.refusal 0 (path :: second :: rest)) := if_neg (by simp)
    rw [surplus]
    rfl

end Home

section Instances

def instanceId (source : IdSource) : Guarded (String × IdSource) := do
  let issued ← sum UInt64.size source.issued 1
  let drawn := source.random.next64
  return ("i-" ++ String.ofList (Text.hexDigits 12 drawn.1 ++ Text.hexDigits 5 issued),
    { random := drawn.2, issued })

def create (setting : Setting) (world : World) (arguments : List String) : Guarded Outcome := do
  match Instance.createManual.afterWord "instance" arguments with
  | .error e => return (.error e, world)
  | .ok rest =>
    match ← twoArguments Instance.createManual rest with
    | .error e => return (.error e, world)
    | .ok (name, word) =>
      match InstanceType.ofText? word with
      | none => return (.error (.unknownInstanceType word), world)
      | some type =>
        if world.store.instances.contains name then
          return (.error (.duplicateName (Named.label Instance) name), world)
        else
          let (id, ids) ← instanceId world.ids
          match world.store.instances.add (.launch id name type setting.clock) with
          | .error e => return (.error e, { world with ids })
          | .ok instances =>
            return (.ok (.text s!"Created {type.text} instance '{name}'\n  ID:     {id}\n  Status: running"),
              { world with ids, store.instances := instances })

def delete (world : World) (arguments : List String) : Guarded Outcome := do
  match Instance.nameArgument Instance.deleteManual arguments with
  | .error e => return (.error e, world)
  | .ok name =>
    match ← remove world.store.instances name with
    | .error e => return (.error e, world)
    | .ok (i, instances) =>
      return (.ok (.text s!"Deleted instance '{name}' ({i.id})"), { world with store.instances := instances })

theorem identifier_is_faultless {source : IdSource} (few : source.issued + 1 < UInt64.size) :
    instanceId source = .ok source.instanceId := by
  rw [instanceId, sum_below few]
  rfl

theorem create_is_faultless (setting : Setting) {world : World} (few : world.ids.issued + 1 < UInt64.size)
    (arguments : List String) :
    create setting world arguments = .ok (Instance.create.run setting world arguments) := by
  unfold create Instance.create
  dsimp only
  cases Instance.createManual.afterWord "instance" arguments with
  | error e => rfl
  | ok rest =>
    simp only [two_arguments_are_found, go_on, Except.bind, identifier_is_faultless few]
    cases Instance.createManual.twoArguments rest with
    | error e => rfl
    | ok both =>
      obtain ⟨name, word⟩ := both
      dsimp only
      cases InstanceType.ofText? word with
      | none => rfl
      | some type =>
        dsimp only
        split
        · rfl
        · cases world.store.instances.add (.launch world.ids.instanceId.1 name type setting.clock) <;> rfl

theorem delete_is_faultless (setting : Setting) (world : World) (arguments : List String) :
    delete world arguments = .ok (Instance.delete.run setting world arguments) := by
  unfold delete Instance.delete
  dsimp only
  cases Instance.nameArgument Instance.deleteManual arguments with
  | error e => rfl
  | ok name =>
    dsimp only
    rw [removed_entry_has_a_place, go_on]
    cases world.store.instances.remove name <;> rfl

end Instances

section Keys

/-- The first number from `n` on whose name no key has. Before the name of a number is looked at, the next
number is made, which has thirty-two bits. -/
def searchNumber (keys : Directory Key) (n : Nat) : Guarded Nat :=
  if n + 1 < UInt32.size then
    if keys.contains (Key.numberedName n) then searchNumber keys (n + 1) else .ok n
  else .error .overflow
termination_by UInt32.size - n

def freeName (keys : Directory Key) : Guarded String :=
  if keys.contains Key.defaultName then (searchNumber keys 1).map Key.numberedName else .ok Key.defaultName

def newName (keys : Directory Key) : Option String → Guarded (Except Error String)
  | none => (freeName keys).map .ok
  | some name => .ok (Key.newName keys (some name))

/-- The fingerprint of a text, whose bytes are a piece of a digest. -/
def fingerprint (material : String) : Guarded String := do
  let bytes ← piece (Digest.ofText material).toList 0 16
  return ":".intercalate (bytes.map fun byte => String.ofList (Text.hexDigits 2 byte.toNat))

def generate (name publicKey created : String) : Guarded Key := do
  return { name, publicKey, fingerprint := ← fingerprint publicKey, created }

def keygen (setting : Setting) (world : World) (arguments : List String) : Guarded Outcome := do
  match Key.keygenManual.optionalArgument arguments with
  | .error e => return (.error e, world)
  | .ok name? =>
    match ← newName world.store.keys name? with
    | .error e => return (.error e, world)
    | .ok name =>
      if world.store.keys.contains name then return (.error (.duplicateName (Named.label Key) name), world)
      else
        let (publicKey, ids) := world.ids.publicKey setting.config.identity
        let key ← generate name publicKey setting.clock
        match world.store.keys.add key with
        | .error e => return (.error e, { world with ids })
        | .ok keys =>
          return (.ok (.text (Key.announcement setting.config key)), { world with ids, store.keys := keys })

def removeKey (world : World) (arguments : List String) : Guarded Outcome := do
  match ← oneArgument Key.removeManual arguments with
  | .error e => return (.error e, world)
  | .ok name =>
    match ← remove world.store.keys name with
    | .error e => return (.error e, world)
    | .ok (key, keys) =>
      return (.ok (.text s!"Removed key '{key.name}' ({key.fingerprint})"), { world with store.keys := keys })

variable {keys : Directory Key}

/-- The loop over the numbers finds the first free one before its counter overflows. -/
theorem number_is_found {left n m : Nat} (fits : n + left < UInt32.size)
    (found : Key.freeNumber? keys left n = some m) :
    searchNumber keys n = .ok m := by
  induction left generalizing n with
  | zero => cases found
  | succ left ih =>
    rw [searchNumber, if_pos (by omega)]
    unfold Key.freeNumber? at found
    split
    · rename_i taken
      rw [if_pos taken] at found
      exact ih (by omega) found
    · rename_i free
      rw [if_neg free] at found
      exact congrArg Except.ok (Option.some.inj found)

/-- Of the numbers that there are, one is left when there are fewer keys. -/
theorem some_number_is_left (few : keys.size < UInt32.size - 1) (taken : keys.contains Key.defaultName = true) :
    ∃ n, Key.freeNumber? keys Key.numberLimit 1 = some n := by
  obtain ⟨some_free, near, free⟩ := keys.some_name_is_free Key.defaultNameAt_injective
  have exists_free : ∃ n, keys.contains (Key.defaultNameAt n) = false := ⟨some_free, free⟩
  have numbered : Nat.find exists_free ≤ Key.numberLimit :=
    Nat.le_trans (Nat.find_min' exists_free free) (Nat.le_trans near (Nat.le_of_lt_succ few))
  have before : ∀ m < Nat.find exists_free, keys.contains (Key.defaultNameAt m) = true := fun m passed => by
    simpa using Nat.find_min exists_free passed
  exact ⟨_, (Key.first_default_name_is_chosen numbered (Nat.find_spec exists_free) before).2 taken⟩

/-- With fewer keys than numbers, some number is free, so that the search ends in time. -/
theorem free_name_is_faultless (few : keys.size < UInt32.size - 1) : freeName keys = .ok (Key.freeName keys) := by
  unfold freeName Key.freeName
  split
  · rename_i taken
    obtain ⟨n, found⟩ := some_number_is_left few taken
    rw [number_is_found (by decide) found, found]
    rfl
  · rfl

theorem fingerprint_is_faultless (material : String) :
    fingerprint material = .ok (CloudTerminal.fingerprint material) := by
  rw [fingerprint, piece_inside (Nat.zero_le 16) (by simp)]
  rfl

theorem generating_is_faultless (name publicKey created : String) :
    generate name publicKey created = .ok (.generate name publicKey created) := by
  rw [generate, fingerprint_is_faultless]
  rfl

theorem keygen_is_faultless (setting : Setting) {world : World} (few : world.store.keys.size < UInt32.size - 1)
    (arguments : List String) : keygen setting world arguments = .ok (Key.keygen.run setting world arguments) := by
  unfold keygen Key.keygen
  dsimp only
  cases Key.keygenManual.optionalArgument arguments with
  | error e => rfl
  | ok name? =>
    have chosen : newName world.store.keys name? = .ok (Key.newName world.store.keys name?) := by
      cases name? with
      | none => rw [newName, free_name_is_faultless few]; rfl
      | some name => rfl
    dsimp only [Except.bind]
    rw [chosen, go_on]
    cases Key.newName world.store.keys name? with
    | error e => rfl
    | ok name =>
      dsimp only
      split
      · rfl
      · rw [generating_is_faultless, go_on]
        cases world.store.keys.add
          (.generate name (world.ids.publicKey setting.config.identity).1 setting.clock) <;> rfl

theorem remove_key_is_faultless (setting : Setting) (world : World) (arguments : List String) :
    removeKey world arguments = .ok (Key.remove.run setting world arguments) := by
  unfold removeKey Key.remove
  dsimp only
  rw [one_argument_is_found, go_on]
  cases Key.removeManual.oneArgument arguments with
  | error e => rfl
  | ok name =>
    dsimp only
    rw [removed_entry_has_a_place, go_on]
    cases world.store.keys.remove name <;> rfl

end Keys

section Repositories

open Repository (Transfer)

/-- The extent of the transfer of a URL, in numbers of thirty-two bits. -/
def transferOf (url : String) : Guarded Transfer := do
  let digest := Digest.ofText url
  let pair := (← octet digest 0).toNat * 256 + (← octet digest 1).toNat
  let objects ← sum UInt32.size 20 (← remainder pair 2000)
  let kibibytes ← sum UInt32.size (← product UInt32.size objects 3) (← octet digest 2).toNat
  return { objects, kibibytes }

def deltas (transfer : Transfer) : Guarded Nat := do quotient (← product UInt32.size transfer.objects 2) 5

def transferLines (url : String) : Guarded (List String) := do
  let transfer ← transferOf url
  let deltas ← deltas transfer
  return [s!"remote: Enumerating objects: {transfer.objects}, done.",
    s!"remote: Counting objects: 100% ({transfer.objects}/{transfer.objects}), done.",
    s!"Receiving objects: 100% ({transfer.objects}/{transfer.objects}), {transfer.kibibytes} KiB, done.",
    s!"Resolving deltas: 100% ({deltas}/{deltas}), done."]

def cloneLines (url name : String) (delay : Nat) : Guarded (List String) :=
  (if 0 < delay then .ok [s!"Clone in progress. Check with 'git status {name}'."]
    else if Repository.cloneOutcome url = .cloned then transferLines url
    else .ok [s!"fatal: repository '{url}' does not exist"]).map (s!"Cloning into '{name}'..." :: ·)

def clone (setting : Setting) (world : World) (url name : String) : Guarded Outcome := do
  match world.store.repositories.add (.begin name url) with
  | .error e => return (.error e, world)
  | .ok repositories =>
    let delay := setting.config.cloneDelay
    match world.clones.schedule repositories name delay (Repository.cloneOutcome url) with
    | .ok (repositories, clones) =>
      return (.ok (.text ("\n".intercalate (← cloneLines url name delay))),
        { world with store.repositories := repositories, clones })
    | .error e =>
      match ← remove repositories name with
      | .error _ => return (.error e, { world with store.repositories := repositories })
      | .ok (_, repositories) => return (.error e, { world with store.repositories := repositories })

/-- Carries out `git clone` with the arguments behind these words. -/
def runClone (setting : Setting) (world : World) (arguments : List String) : Guarded Outcome := do
  match ← oneArgumentOrTwo Repository.manual arguments with
  | .error e => return (.error e, world)
  | .ok (url, name?) =>
    match Repository.directoryFor url name? with
    | .error e => return (.error e, world)
    | .ok name =>
      if Home.isFixed name then return (.error (.occupiedDirectory name), world)
      else clone setting world url name

/-- Answers `git status` with the arguments behind these words. -/
def viewStatus (store : Store) (arguments : List String) : Guarded (Except Error Reply) := do
  match ← oneArgument Repository.manual arguments with
  | .error e => return .error e
  | .ok name => return (store.repositories.find name).map fun r => .text (Repository.description r)

def git (setting : Setting) (world : World) (arguments : List String) : Guarded Outcome :=
  match arguments with
  | "clone" :: rest => runClone setting world rest
  | "status" :: rest => (viewStatus world.store rest).map (·, world)
  | _ => .ok (Repository.git.run setting world arguments)

/-- The counts of a transfer are small, as they are drawn from single bytes of a digest. -/
theorem transfer_has_few_objects (url : String) : (Transfer.ofUrl url).objects < 2020 := by
  have few : Digest.pairAt (Digest.ofText url) 0 % 2000 < 2000 := Nat.mod_lt _ (by decide)
  simp only [Transfer.ofUrl]
  omega

theorem transfer_is_faultless (url : String) : transferOf url = .ok (.ofUrl url) := by
  have few : 20 + Digest.pairAt (Digest.ofText url) 0 % 2000 < 2020 := transfer_has_few_objects url
  have byte := (Digest.byteAt (Digest.ofText url) 2).toNat_lt
  have paired : (Digest.byteAt (Digest.ofText url) 0).toNat * 256 + (Digest.byteAt (Digest.ofText url) 1).toNat =
      Digest.pairAt (Digest.ofText url) 0 := rfl
  have word : UInt32.size = 4294967296 := rfl
  unfold transferOf
  dsimp only
  rw [octet_inside _ (by decide), go_on, octet_inside _ (by decide), go_on, paired,
    remainder_by_positive (by decide), go_on, sum_below (by omega), go_on, product_below (by omega), go_on,
    octet_inside _ (by decide), go_on, sum_below (by omega)]
  rfl

theorem deltas_are_faultless (url : String) : deltas (.ofUrl url) = .ok (Transfer.ofUrl url).deltas := by
  have few := transfer_has_few_objects url
  have word : UInt32.size = 4294967296 := rfl
  rw [deltas, product_below (by omega), go_on, quotient_by_positive (by decide)]
  rfl

theorem clone_lines_are_faultless (url name : String) (delay : Nat) :
    cloneLines url name delay = .ok (Repository.cloneLines url name delay) := by
  have transferred : transferLines url = .ok (Transfer.ofUrl url).lines := by
    rw [transferLines, transfer_is_faultless, go_on, deltas_are_faultless]
    rfl
  unfold cloneLines Repository.cloneLines
  rw [transferred]
  split
  · rfl
  · split <;> rfl

/-- A clone is without a fault, also when it takes its repository out again because its end cannot be
scheduled. -/
theorem clone_is_faultless (setting : Setting) (world : World) (url name : String) :
    clone setting world url name = .ok (Repository.clone setting world url name) := by
  unfold clone Repository.clone
  cases world.store.repositories.add (.begin name url) with
  | error e => rfl
  | ok repositories =>
    dsimp only
    cases world.clones.schedule repositories name setting.config.cloneDelay (Repository.cloneOutcome url) with
    | ok scheduled =>
      dsimp only
      rw [clone_lines_are_faultless, go_on]
      rfl
    | error e =>
      dsimp only
      rw [removed_entry_has_a_place, go_on]
      cases repositories.remove name <;> rfl

theorem git_is_faultless (setting : Setting) (world : World) (arguments : List String) :
    git setting world arguments = .ok (Repository.git.run setting world arguments) := by
  unfold git
  split
  · rename_i rest
    unfold runClone
    show _ = Except.ok (Repository.runClone setting world rest)
    unfold Repository.runClone
    rw [one_argument_or_two_are_found, go_on]
    cases Repository.manual.oneArgumentOrTwo rest with
    | error e => rfl
    | ok both =>
      obtain ⟨url, name?⟩ := both
      dsimp only
      cases Repository.directoryFor url name? with
      | error e => rfl
      | ok name =>
        dsimp only
        rw [clone_is_faultless]
        split <;> rfl
  · rename_i rest
    show _ = Except.ok (Repository.viewStatus world.store rest, world)
    unfold viewStatus Repository.viewStatus
    rw [one_argument_is_found, go_on]
    cases Repository.manual.oneArgument rest <;> rfl
  · rfl

end Repositories

section Lines

open Watched (unlimited withOneArgument)

/-- A command that only reads the store. -/
def reading (command : Command) (view : Setting → Store → List String → Guarded (Except Error Reply)) :
    Watched where
  command
  run setting world arguments := (view setting world.store arguments).map (·, world)

def commands : List Watched := [
  unlimited Home.clear, unlimited Home.pwd, reading Home.ls ls, unlimited Home.status,
  ⟨Instance.create, create⟩, unlimited Instance.instances, unlimited Instance.startCommand,
  unlimited Instance.stopCommand, unlimited Instance.describe, ⟨Instance.delete, fun _ => delete⟩,
  ⟨Key.keygen, keygen⟩, withOneArgument Key.add, unlimited Key.list, ⟨Key.remove, fun _ => removeKey⟩,
  withOneArgument Key.login,
  reading Host.ping fun setting _ => ping setting, unlimited Host.ifconfig, unlimited Host.netstat,
  reading Host.curl fun _ _ => curl, reading Host.wget fun setting _ => wget setting,
  ⟨Repository.git, git⟩]

def run (setting : Setting) (world : World) (line : Line) : Guarded Outcome :=
  if line.command = Registry.helpManual.name then .ok (Terminal.registry.help line.arguments, world)
  else
    match commands.find? (·.command.name == line.command) with
    | none => .ok (.error (.unknownCommand line.command), world)
    | some watched => watched.run setting world line.arguments

/-- Fewer identifiers and keys have been made than there are numbers for them. -/
structure HasRoom (world : World) : Prop where
  identifiers : world.ids.issued + 1 < UInt64.size
  keys : world.store.keys.size < UInt32.size - 1

theorem watched_commands_are_those_of_the_terminal : commands.map (·.command) = Terminal.commands := rfl

variable {setting : Setting} {world : World} {arguments : List String}

/-- A command of one argument looks at its argument only after it has counted the arguments. -/
theorem one_argument_command_is_faultless {command : Command}
    (refuses : ∀ e, command.oneArgument arguments = .error e →
      command.run setting world arguments = (.error e, world)) :
    (withOneArgument command).run setting world arguments = .ok (command.run setting world arguments) := by
  dsimp only [withOneArgument]
  rw [one_argument_is_found, go_on]
  cases parsed : command.oneArgument arguments with
  | error e => rw [refuses e parsed]; rfl
  | ok argument => rw [takes_one_argument.mp parsed]; rfl

/-- A command that only reads is without a fault if what it reads is, since it hands the world back. -/
theorem reading_command_is_faultless {command : Command}
    {view : Setting → Store → List String → Guarded (Except Error Reply)}
    (quiet : (command.run setting world arguments).2 = world)
    (faultless : view setting world.store arguments = .ok (command.run setting world arguments).1) :
    (reading command view).run setting world arguments = .ok (command.run setting world arguments) := by
  dsimp only [reading]
  rw [faultless]
  exact congrArg Except.ok (Prod.ext rfl quiet.symm)

/-- No command of the terminal is at fault. -/
theorem command_is_faultless (room : HasRoom world) : ∀ watched ∈ commands,
    watched.run setting world arguments = .ok (watched.command.run setting world arguments) := by
  simp only [commands, List.forall_mem_cons, List.not_mem_nil, false_implies, implies_true, and_true]
  refine ⟨?clear, ?pwd, ?ls, ?status, ?create, ?instances, ?start, ?stop, ?describe, ?delete, ?keygen, ?add, ?list,
    ?remove, ?login, ?ping, ?ifconfig, ?netstat, ?curl, ?wget, ?git⟩
  case ls => exact reading_command_is_faultless rfl (ls_is_faultless setting world arguments)
  case create => exact create_is_faultless setting room.identifiers arguments
  case delete => exact delete_is_faultless setting world arguments
  case keygen => exact keygen_is_faultless setting room.keys arguments
  case add =>
    refine one_argument_command_is_faultless fun e refused => ?_
    have refused : Key.addManual.oneArgument arguments = .error e := refused
    simp only [Key.add, refused]
  case remove => exact remove_key_is_faultless setting world arguments
  case login =>
    refine one_argument_command_is_faultless fun e refused => ?_
    have refused : Key.loginManual.oneArgument arguments = .error e := refused
    simp only [Key.login, Command.reading, refused]
  case ping => exact reading_command_is_faultless rfl (ping_is_faultless setting world arguments)
  case curl => exact reading_command_is_faultless rfl (curl_is_faultless arguments setting world)
  case wget => exact reading_command_is_faultless rfl (wget_is_faultless arguments setting world)
  case git => exact git_is_faultless setting world arguments
  all_goals rfl

/-- No line is at fault. -/
theorem line_is_faultless (setting : Setting) (room : HasRoom world) (line : Line) :
    run setting world line = .ok (Terminal.registry.run setting world line) := by
  obtain ⟨word, arguments⟩ := line
  unfold run
  split
  · rename_i help
    rw [Registry.run, if_pos help]
  · rename_i other
    cases found : commands.find? (·.command.name == word) with
    | none =>
      have unknown : Terminal.registry.lookup word = none := by
        refine Option.eq_none_iff_forall_ne_some.mpr fun command known => ?_
        obtain ⟨listed, named⟩ := (terminal_finds_exactly_its_commands word command).mp known
        rw [← watched_commands_are_those_of_the_terminal] at listed
        obtain ⟨watched, member, rfl⟩ := List.mem_map.mp listed
        exact List.find?_eq_none.mp found watched member (beq_iff_eq.mpr named)
      exact congrArg Except.ok (Registry.run_of_unknown other unknown).symm
    | some watched =>
      have member := List.mem_of_find?_eq_some found
      have named : watched.command.name = word := by simpa using List.find?_some found
      have listed : watched.command ∈ Terminal.commands := List.mem_map_of_mem (f := (·.command)) member
      rw [← named, run_by_the_command setting world arguments listed]
      exact command_is_faultless room watched member

end Lines

end CloudTerminal.Guarded
