import CloudTerminal.Repository

/-!
Clones that wait for their end. A clone with delay `n` stays under way while the next `n` commands run and
is resolved at the start of the command after them. A repository has at most one waiting clone.
-/

namespace CloudTerminal

/-- `PendingClone`: a clone that waits. -/
structure CloneJob where
  repository : String
  /-- The commands still to pass before the one that resolves the clone. -/
  remaining : Nat
  outcome : CloneStatus
  deriving DecidableEq

/-- `CloneScheduler`: the waiting clones in the order in which they were scheduled. -/
structure CloneQueue where
  jobs : List CloneJob := []
  deriving DecidableEq

/-- What the passing of a command leaves: the clones resolved by it, the repositories and the clones that
still wait. -/
structure CloneProgress where
  resolved : List (String × CloneStatus) := []
  repositories : Directory Repository
  waiting : List CloneJob := []

namespace CloneQueue

/-- `CloneScheduler::is_pending`: whether a clone of the repository waits. -/
def isPending (queue : CloneQueue) (repository : String) : Bool :=
  queue.jobs.any (·.repository == repository)

/-- `CloneScheduler::len`: the number of waiting clones. -/
def size (queue : CloneQueue) : Nat := queue.jobs.length

/-- Ends the clone of a repository. -/
def settle (repositories : Directory Repository) (name : String) (outcome : CloneStatus) :
    Except Error (Directory Repository) :=
  (repositories.update name fun r => (r.resolve outcome).map ((), ·)).map (·.2)

/-- `CloneScheduler::schedule`: lets a clone end in `outcome` after `delay` commands; without delay it
ends at once. -/
def schedule (queue : CloneQueue) (repositories : Directory Repository) (name : String) (delay : Nat)
    (outcome : CloneStatus) : Except Error (Directory Repository × CloneQueue) :=
  if queue.isPending name then .error (.pendingClone name)
  else if delay = 0 then (settle repositories name outcome).map (·, queue)
  else .ok (repositories, ⟨queue.jobs ++ [{ repository := name, remaining := delay, outcome }]⟩)

/-- Counts a command for one job. A job that has waited long enough is resolved; if its repository does
not allow that, the job is dropped. -/
def advance (progress : CloneProgress) (job : CloneJob) : CloneProgress :=
  if job.remaining = 0 then
    match settle progress.repositories job.repository job.outcome with
    | .ok repositories =>
      { progress with
        resolved := progress.resolved ++ [(job.repository, job.outcome)], repositories }
    | .error _ => progress
  else { progress with waiting := progress.waiting ++ [{ job with remaining := job.remaining - 1 }] }

/-- `CloneScheduler::tick`: counts a command for every waiting clone, in order. -/
def tick (queue : CloneQueue) (repositories : Directory Repository) : CloneProgress :=
  queue.jobs.foldl advance { repositories }

end CloneQueue

end CloudTerminal
