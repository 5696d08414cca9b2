/-!
How far the clone of a repository has come.
-/

namespace CloudTerminal

/-- `RepoStatus`: a clone is under way, has arrived, or has failed. -/
inductive CloneStatus where
  | cloning
  | cloned
  | failed
  deriving DecidableEq, Repr

namespace CloneStatus

/-- The word for a status in listings and messages. -/
def text : CloneStatus → String
  | cloning => "cloning"
  | cloned => "cloned"
  | failed => "error"

/-- `RepoStatus::is_terminal`: whether the clone is over, one way or the other. -/
def isFinal : CloneStatus → Bool
  | cloning => false
  | cloned => true
  | failed => true

theorem isFinal_iff (status : CloneStatus) : status.isFinal = true ↔ status ≠ cloning := by
  cases status <;> decide

end CloneStatus

end CloudTerminal
