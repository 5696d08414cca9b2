import CloudTerminal.Config
import CloudTerminal.Toml.Document

/-!
Settings from TOML text and from files. Keys that are no settings are ignored, and settings without a key
have their default.
-/

namespace CloudTerminal.Config

/-- The setting at a key, or its default when the key is absent; a value of another kind is refused. -/
def field {α : Type} (entries : Toml.Entries) (key : String) (default : α)
    (ofValue? : Toml.Value → Option α) : Option α :=
  match entries.lookup key with
  | none => some default
  | some value => ofValue? value

/-- A text. -/
def text? : Toml.Value → Option String
  | .string text => some text
  | _ => none

/-- An integer that is not negative and less than `bound`. -/
def numberBelow? (bound : Nat) : Toml.Value → Option Nat
  | .integer n => if 0 ≤ n ∧ n < bound then some n.toNat else none
  | _ => none

/-- A seed. -/
def seed? (value : Toml.Value) : Option (Option UInt64) :=
  (numberBelow? UInt64.size value).map fun n => some n.toUInt64

/-- The settings in a table; their ranges are not checked. -/
def ofEntries? (entries : Toml.Entries) : Option Config := do
  let defaults : Config := {}
  return {
    user := ← field entries "user" defaults.user text?
    hostname := ← field entries "hostname" defaults.hostname text?
    home := ← field entries "home" defaults.home text?
    seed := ← field entries "seed" defaults.seed seed?
    cloneDelay := ← field entries "clone_delay" defaults.cloneDelay (numberBelow? UInt32.size)
    pingCount := ← field entries "ping_count" defaults.pingCount (numberBelow? UInt32.size) }

/-- `SimConfig::from_toml`: the settings in a TOML document, which have to be valid. -/
def ofToml (document : String) : Except Error Config :=
  match (Toml.parse document).bind ofEntries? with
  | none => .error .malformedToml
  | some config => config.check.map fun _ => config

/-- What is found at a path. -/
inductive FileContent where
  | missing
  | directory
  | bytes (content : ByteArray)

/-- `SimConfig::load`: the settings in a file. A document that is refused is reported with the name of the
file. -/
def ofFile (file : String) : FileContent → Except Error Config
  | .missing => .error .noSuchFile
  | .directory => .error .isDirectory
  | .bytes content =>
    match String.fromUTF8? content with
    | none => .error .notUtf8
    | some document => (ofToml document).mapError (.inFile file)

end CloudTerminal.Config
