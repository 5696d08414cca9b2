/-!
The five instance types and the two power states, with the words that name them.
-/

namespace CloudTerminal

/-- What an instance is for. -/
inductive InstanceType where
  | compute
  | database
  | storage
  | network
  | security
  deriving DecidableEq, Repr

namespace InstanceType

/-- `InstanceType::ALL`: all types, in the order in which summaries and messages list them. -/
def all : List InstanceType := [compute, database, storage, network, security]

/-- `InstanceType::as_str`: the word for the type in commands and listings. -/
def text : InstanceType → String
  | compute => "compute"
  | database => "database"
  | storage => "storage"
  | network => "network"
  | security => "security"

/-- `InstanceType::short_label`: the short label of the type in the summary of a store. -/
def label : InstanceType → String
  | compute => "Compute"
  | database => "DB"
  | storage => "Storage"
  | network => "Net"
  | security => "Sec"

/-- `InstanceType::from_str`: the type that a word names; case matters. -/
def ofText? (word : String) : Option InstanceType := all.find? (·.text == word)

theorem ofText?_text (type : InstanceType) : ofText? type.text = some type := by
  cases type <;> decide

end InstanceType

/-- `InstanceStatus`: whether an instance is up. -/
inductive Power where
  | running
  | stopped
  deriving DecidableEq, Repr

/-- The word for a power state. -/
def Power.text : Power → String
  | running => "running"
  | stopped => "stopped"

end CloudTerminal
