import CloudTerminal.Command
import CloudTerminal.Home
import CloudTerminal.Key.Login

/-!
The commands about keys, and the simulated login that uses them.
-/

namespace CloudTerminal.Key

/-- `DEFAULT_KEY_NAME`: the name of a key that is generated without one, if it is free. -/
def defaultName : String := "id_ed25519"

/-- The default name with a number behind it. -/
def numberedName (n : Nat) : String := s!"{defaultName}_{n}"

/-- How many numbers can stand behind the default name. They have 32 bits, and zero and the largest do not
count. -/
def numberLimit : Nat := 4294967294

/-- The first number whose name no key has, of as many as are `left` from `n` on. -/
def freeNumber? (keys : Directory Key) : (left n : Nat) → Option Nat
  | 0, _ => none
  | left + 1, n => if keys.contains (numberedName n) then freeNumber? keys left (n + 1) else some n

/-- `next_default_name`: the first name that no key has, of the default name and the default name with the
numbers from one on behind it. -/
def freeName (keys : Directory Key) : String :=
  if keys.contains defaultName then
    ((freeNumber? keys numberLimit 1).map numberedName).getD defaultName
  else defaultName

theorem freeName_eq (keys : Directory Key) :
    freeName keys = defaultName ∨ ∃ n, freeName keys = numberedName n := by
  unfold freeName
  split
  · cases freeNumber? keys numberLimit 1 with
    | none => exact .inl rfl
    | some n => exact .inr ⟨n, rfl⟩
  · exact .inl rfl

theorem toList_numberedName (n : Nat) : (numberedName n).toList = "id_ed25519_".toList ++ Nat.toDigits 10 n := by
  rw [numberedName, String.toList_append, Nat.toString_eq_ofList_toDigits, String.toList_ofList]
  rfl

theorem freeNumber?_congr {keys keys' : Directory Key} (same : keys.contains = keys'.contains)
    (left n : Nat) : freeNumber? keys left n = freeNumber? keys' left n := by
  induction left generalizing n with
  | zero => rfl
  | succ left ih => simp only [freeNumber?, same, ih]

theorem freeName_congr {keys keys' : Directory Key} (same : keys.contains = keys'.contains) :
    freeName keys = freeName keys' := by
  simp only [freeName, same, freeNumber?_congr same]

def keygenManual : Manual where
  name := "ssh-keygen"
  summary := "Generate an SSH key pair"
  usage := "ssh-keygen [name]"
  category := "ssh"

/-- The name for a new key: the one that is given, or a free default name. -/
def newName (keys : Directory Key) : Option String → Except Error String
  | none => .ok (freeName keys)
  | some name => if isValidName name then .ok name else .error (.invalidKeyName name)

/-- What is shown about a key that has just been generated. -/
def announcement (config : Config) (key : Key) : String :=
  let path := Home.keyPath config.home key.name
  "\n".intercalate ["Generating public/private ed25519 key pair.",
    s!"Your identification has been saved in {path}", s!"Your public key has been saved in {path}.pub",
    "The key fingerprint is:", s!"{key.fingerprint} {config.identity}", "The public key is:",
    key.publicKey]

/-- `SshKeygenCmd`: generates a key of a new name. -/
def keygen : Command := { keygenManual with
  run := fun setting world arguments =>
    match (keygenManual.optionalArgument arguments).bind (newName world.store.keys) with
    | .error e => (.error e, world)
    | .ok name =>
      if world.store.keys.contains name then
        (.error (.duplicateName (Named.label Key) name), world)
      else
        let (publicKey, ids) := world.ids.publicKey setting.config.identity
        let key := generate name publicKey setting.clock
        match world.store.keys.add key with
        | .error e => (.error e, { world with ids })
        | .ok keys =>
          (.ok (.text (announcement setting.config key)), { world with ids, store.keys := keys }) }

def addManual : Manual where
  name := "ssh-add"
  summary := "Add a key to the SSH agent"
  usage := "ssh-add <name>"
  category := "ssh"

/-- `SshAddCmd`: lets the agent hold a key. -/
def add : Command := { addManual with
  run := fun setting world arguments =>
    match addManual.oneArgument arguments with
    | .error e => (.error e, world)
    | .ok name =>
      match world.store.keys.update name fun key => .ok key.markAdded with
      | .error e => (.error e, world)
      | .ok (isNew, keys) =>
        let verb := if isNew then "added" else "already added"
        let path := Home.keyPath setting.config.home name
        (.ok (.text s!"Identity {verb}: {path} ({setting.config.identity})"),
          { world with store.keys := keys }) }

def listManual : Manual where
  name := "ssh-list"
  summary := "List SSH keys"
  usage := "ssh-list"
  category := "ssh"

/-- `SshListCmd`: the answer of the listing. -/
def listing (store : Store) : Reply :=
  match store.keys.toList with
  | [] => .text "No SSH keys found. Use 'ssh-keygen [name]' to generate one."
  | keys =>
    .table ["NAME", "FINGERPRINT", "CREATED", "AGENT"]
      (keys.map fun key => [key.name, key.fingerprint, key.created, if key.added then "yes" else "no"])

def list : Command := .reading listManual fun _ store arguments =>
  (listManual.noArgument arguments).map fun _ => listing store

def removeManual : Manual where
  name := "ssh-remove"
  summary := "Delete an SSH key"
  usage := "ssh-remove <name>"
  category := "ssh"

/-- `SshRemoveCmd`: deletes a key. -/
def remove : Command := { removeManual with
  run := fun _ world arguments =>
    match removeManual.oneArgument arguments with
    | .error e => (.error e, world)
    | .ok name =>
      match world.store.keys.remove name with
      | .error e => (.error e, world)
      | .ok (key, keys) =>
        (.ok (.text s!"Removed key '{key.name}' ({key.fingerprint})"),
          { world with store.keys := keys }) }

def loginManual : Manual where
  name := "ssh"
  summary := "Connect to a remote host"
  usage := "ssh <user@host>"
  category := "ssh"

/-- How a login proves who it is: with the first key that the agent holds, or else with a password. -/
def authentication (store : Store) (login : Login) : String :=
  match store.keys.toList.find? (·.added) with
  | some key =>
    s!"Authenticated to {login.host} using public key '{key.name}' ({key.fingerprint})."
  | none => s!"{login.user}@{login.host}: authenticated with password."

/-- `SshCmd`: what is shown of a login. -/
def transcript (setting : Setting) (store : Store) (login : Login) : String :=
  "\n".intercalate [s!"Connecting to {login.host} as {login.user}...", authentication store login,
    s!"Welcome to {login.host}", s!"Last login: {setting.clock} from {setting.config.hostname}",
    s!"Connection to {login.host} closed."]

def login : Command := .reading loginManual fun setting store arguments =>
  match loginManual.oneArgument arguments with
  | .error e => .error e
  | .ok target =>
    match Login.parse target with
    | none => .error (.invalidLogin target loginManual.usage)
    | some login => .ok (.text (transcript setting store login))

/-- `register_ssh_commands`: the commands about keys, and the login. -/
def commands : List Command := [keygen, add, list, remove, login]

end CloudTerminal.Key
