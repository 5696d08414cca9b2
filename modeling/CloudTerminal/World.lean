import CloudTerminal.Config
import CloudTerminal.Identity
import CloudTerminal.Reply
import CloudTerminal.Repository.Queue
import CloudTerminal.Store

/-!
What commands work on. The world is what they may change; the setting is what they only look at.
-/

namespace CloudTerminal

/-- `Environment`: the resources, the source of their identifiers and the clones that wait. -/
structure World where
  store : Store := {}
  ids : IdSource
  clones : CloneQueue := {}

/-- The settings, and the time that the clock shows. -/
structure Setting where
  config : Config
  clock : String

/-- How a command ends: its answer or the reason why it was refused, and the world that it leaves. -/
abbrev Outcome := Except Error Reply × World

namespace World

/-- A world without resources. -/
def ofSeed (seed : UInt64) : World := { ids := .ofSeed seed }

/-- `CloneScheduler::tick`: lets a command pass, which resolves the clones that have waited long enough. Answers
which. -/
def tick (world : World) : List (String × CloneStatus) × World :=
  let progress := world.clones.tick world.store.repositories
  (progress.resolved,
    { world with store.repositories := progress.repositories, clones := ⟨progress.waiting⟩ })

end World

end CloudTerminal
