import CloudTerminal.Directory

/-!
Cloned repositories. A repository starts out cloning, and its clone is resolved exactly once.
-/

namespace CloudTerminal

/-- `GitRepo`: a repository that has been cloned or is being cloned. -/
structure Repository where
  name : String
  url : String
  status : CloneStatus
  deriving DecidableEq

namespace Repository

instance : Named Repository where
  label := "repository"
  name := Repository.name

/-- `GitRepo::cloning`: a repository whose clone has just begun. -/
def begin (name url : String) : Repository := { name, url, status := .cloning }

/-- `GitRepo::resolve`: ends a clone that is under way. -/
def resolve (outcome : CloneStatus) (r : Repository) : Except Error Repository :=
  if r.status.isFinal then .error (.alreadyResolved r.name r.status)
  else if outcome.isFinal then .ok { r with status := outcome }
  else .error (.cannotResolve r.name outcome)

end Repository

end CloudTerminal
