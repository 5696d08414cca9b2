import CloudTerminal.Instance
import CloudTerminal.Key
import CloudTerminal.Repository

/-!
All resources of a session, and the counts that its status line shows. The three directories are
independent of one another.
-/

namespace CloudTerminal

/-- `ResourceStore`: the resources of a session. -/
structure Store where
  instances : Directory Instance := {}
  keys : Directory Key := {}
  repositories : Directory Repository := {}

/-- The number of instances of every type, and the number of keys. -/
structure Summary where
  instances : List (InstanceType × Nat)
  keys : Nat
  deriving DecidableEq

/-- The status line of a summary. -/
def Summary.text (summary : Summary) : String :=
  String.join (summary.instances.map fun (type, count) => s!"{type.label}: {count}  ") ++
    s!"SSH: {summary.keys}"

namespace Store

/-- `ResourceStore::count_of`: the number of instances of a type. -/
def countOf (store : Store) (type : InstanceType) : Nat :=
  (store.instances.filter (·.type == type)).length

/-- `ResourceStore::summary`: the counts of a store. -/
def summary (store : Store) : Summary where
  instances := InstanceType.all.map fun type => (type, store.countOf type)
  keys := store.keys.size

end Store

end CloudTerminal
