import Mathlib.Data.List.Basic
import CloudTerminal.Proofs.Environment

/-!
Clones that end later than they are scheduled, beside whatever else waits. A job that is scheduled stands
behind all others, so they take their turns as if it was not there, and it takes its own turn last
(`wait_beside_others`, `turn_behind_others`). What the others do to repositories of other names does not
depend on when that turn comes (`passed_of_put`). So a delay changes nothing but the time at which a clone
ends (`delayed_clone_ends_like_an_immediate_one`). It also decides whether the scheduling of a clone that is
over is refused: at once it is, but with a delay the job is taken, and dropped without effect when its turn
comes (`clone_that_is_over_is_refused_at_once_only`).
-/

namespace CloudTerminal

namespace Directory

variable {α β : Type} [Named α] {d : Directory α} {name : String} {entry other : α}

/-- The directory with an entry in the place of the first one of its name. -/
def put (d : Directory α) (entry : α) : Directory α :=
  ⟨d.toList.replaceF fun other => if Named.name other = Named.name entry then some entry else none⟩

theorem find_after_put_elsewhere (apart : name ≠ Named.name entry) : (d.put entry).find name = d.find name := by
  have looked_up : (d.put entry).get? name = d.get? name := by
    simp only [get?, put]
    induction d.toList with
    | nil => rfl
    | cons first rest ih =>
      by_cases same : Named.name first = Named.name entry
      · simp [same, Ne.symm apart]
      · simp [same, List.find?_cons, ih]
  rw [find, find, looked_up]

/-- Putting entries of different names in their places can be done in either order. -/
theorem put_at_two_places (apart : Named.name entry ≠ Named.name other) :
    (d.put entry).put other = (d.put other).put entry := by
  unfold put
  congr 1
  induction d.toList with
  | nil => rfl
  | cons first rest ih =>
    by_cases same : Named.name first = Named.name entry
    · simp [same, apart]
    · by_cases there : Named.name first = Named.name other
      · simp [there, Ne.symm apart]
      · simp [same, there, ih]

theorem put_at_the_place {front back : List α} (found : d.split? name = some (front, entry, back))
    (named : Named.name other = name) : d.put other = ⟨front ++ other :: back⟩ := by
  obtain ⟨list, here, clear⟩ := split?_eq_some_iff.mp found
  unfold put
  rw [list, named]
  clear list found
  congr 1
  induction front with
  | nil => simp [here]
  | cons first rest ih =>
    obtain ⟨skipped, later⟩ := List.forall_mem_cons.mp clear
    simp [skipped, ih later]

theorem find_eq_ok_iff : d.find name = .ok entry ↔ d.get? name = some entry := by
  unfold find
  cases d.get? name <;> simp

theorem find_at_the_place {front back : List α} (found : d.split? name = some (front, entry, back)) :
    d.find name = .ok entry := by
  obtain ⟨list, here, clear⟩ := split?_eq_some_iff.mp found
  have looked_up : d.get? name = some entry := by
    have before : front.find? (Named.name · == name) = none :=
      List.find?_eq_none.mpr fun other member => by simpa using clear other member
    rw [get?, list, List.find?_append, before, Option.none_or]
    exact List.find?_cons_of_pos (by simpa using here)
  exact find_eq_ok_iff.mpr looked_up

/-- An update looks its entry up, and puts what has become of it in its place. -/
theorem update_is_find_and_put {change : α → Except Error (β × α)}
    (keeps : ∀ entry result changed, change entry = .ok (result, changed) →
      Named.name changed = Named.name entry) :
    d.update name change =
      (d.find name).bind fun entry => (change entry).map fun changed => (changed.1, d.put changed.2) := by
  unfold update
  cases found : d.split? name with
  | none =>
    have absent : d.get? name = none :=
      List.find?_eq_none.mpr fun entry member => by simpa using split?_eq_none_iff.mp found entry member
    rw [find, absent]
    rfl
  | some cut =>
    obtain ⟨front, entry, back⟩ := cut
    rw [find_at_the_place found]
    cases made : change entry with
    | error e => simp [Except.bind, Except.map, made]
    | ok changed =>
      have named := (keeps entry changed.1 changed.2 made).trans (split?_eq_some_iff.mp found).2.1
      simp [Except.bind, Except.map, made, put_at_the_place found named]

end Directory

namespace CloneQueue

variable {d after : Directory Repository} {r s : Repository} {name other : String} {outcome : CloneStatus}
  {queue : CloneQueue}

theorem resolved_from_cloning (resolved : r.resolve outcome = .ok s) :
    r.status = .cloning ∧ s = { r with status := outcome } := by
  unfold Repository.resolve at resolved
  split at resolved
  · cases resolved
  · rename_i running
    split at resolved
    · refine ⟨?_, (Except.ok.inj resolved).symm⟩
      by_contra ended
      exact running ((CloneStatus.isFinal_iff _).mpr ended)
    · cases resolved

/-- A clone is ended by looking its repository up, and putting what has become of it in its place. -/
theorem settle_is_find_and_put (d : Directory Repository) (name : String) (outcome : CloneStatus) :
    settle d name outcome = (d.find name).bind fun r => (r.resolve outcome).map d.put := by
  have keeps : ∀ (r : Repository) result s,
      (r.resolve outcome).map ((), ·) = .ok (result, s) → s.name = r.name := by
    intro r result s made
    cases resolved : r.resolve outcome with
    | error e => simp [resolved, Except.map] at made
    | ok t =>
      obtain ⟨-, rfl⟩ := resolved_from_cloning resolved
      simp only [resolved, Except.map, Except.ok.injEq, Prod.mk.injEq] at made
      exact made.2 ▸ rfl
  rw [settle, Directory.update_is_find_and_put keeps]
  cases d.find name with
  | error e => rfl
  | ok r => cases made : r.resolve outcome <;> simp [Except.bind, Except.map, made]

theorem found_by_its_name (found : d.find name = .ok r) : r.name = name :=
  eq_of_beq (List.find?_some (Directory.find_eq_ok_iff.mp found) :)

/-- The end of one clone does not depend on what a repository of another name is. -/
theorem settle_after_put_elsewhere (apart : name ≠ s.name) :
    settle (d.put s) name outcome = (settle d name outcome).map (·.put s) := by
  rw [settle_is_find_and_put, settle_is_find_and_put, Directory.find_after_put_elsewhere apart]
  cases found : d.find name with
  | error e => rfl
  | ok r =>
    cases resolved : r.resolve outcome with
    | error e => simp [Except.bind, Except.map, resolved]
    | ok t =>
      obtain ⟨-, rfl⟩ := resolved_from_cloning resolved
      have elsewhere : s.name ≠ r.name := (found_by_its_name found).symm ▸ apart.symm
      simpa [Except.bind, Except.map, resolved] using Directory.put_at_two_places elsewhere

theorem find_after_settle_elsewhere (settled : settle d other outcome = .ok after) (apart : name ≠ other) :
    after.find name = d.find name := by
  rw [settle_is_find_and_put] at settled
  cases found : d.find other with
  | error e => simp [Except.bind, found] at settled
  | ok r =>
    cases resolved : r.resolve outcome with
    | error e => simp [Except.bind, Except.map, found, resolved] at settled
    | ok t =>
      obtain ⟨-, rfl⟩ := resolved_from_cloning resolved
      simp only [Except.bind, Except.map, found, resolved, Except.ok.injEq] at settled
      rw [← settled]
      exact Directory.find_after_put_elsewhere (found_by_its_name found ▸ apart)

theorem advance_after_put {job : CloneJob} (apart : job.repository ≠ s.name) (progress : CloneProgress) :
    advance { progress with repositories := progress.repositories.put s } job =
      { advance progress job with repositories := (advance progress job).repositories.put s } := by
  unfold advance
  split
  · rw [settle_after_put_elsewhere apart]
    cases settle progress.repositories job.repository job.outcome <;> rfl
  · rfl

theorem find_after_turn {job : CloneJob} (apart : name ≠ job.repository) (progress : CloneProgress) :
    (advance progress job).repositories.find name = progress.repositories.find name := by
  unfold advance
  split
  · split
    · rename_i settled
      exact find_after_settle_elsewhere settled apart
    · rfl
  · rfl

theorem others_only (idle : queue.isPending name = false) : ∀ job ∈ queue.jobs, job.repository ≠ name := by
  simpa [isPending] using idle

/-- What a passing command does to the other repositories does not depend on the one that no job is for. -/
theorem tick_after_put (idle : queue.isPending s.name = false) :
    queue.tick (d.put s) = { queue.tick d with repositories := (queue.tick d).repositories.put s } := by
  refine List.foldl_rel (r := fun progress alone : CloneProgress =>
    progress = { alone with repositories := alone.repositories.put s }) rfl ?_
  rintro job member _ alone rfl
  exact advance_after_put (others_only idle job member) alone

/-- A passing command leaves a repository that no job waits for. -/
theorem find_after_tick (idle : queue.isPending name = false) :
    (queue.tick d).repositories.find name = d.find name := by
  refine List.foldlRecOn (motive := fun progress => progress.repositories.find name = d.find name)
    queue.jobs advance
    (b := { repositories := d }) rfl ?_
  intro progress same job member
  exact (find_after_turn (others_only idle job member).symm progress).trans same

theorem idle_after_tick (idle : queue.isPending name = false) :
    (CloneQueue.mk (queue.tick d).waiting).isPending name = false := by
  have apart : ∀ job ∈ (queue.tick d).waiting, job.repository ≠ name := by
    refine List.foldlRecOn (motive := fun progress => ∀ job ∈ progress.waiting, job.repository ≠ name)
      queue.jobs advance
      (b := { repositories := d }) (List.forall_mem_nil _) ?_
    intro progress waiting job member
    unfold advance
    split
    · split <;> exact waiting
    · exact List.forall_mem_append.mpr ⟨waiting, List.forall_mem_singleton.mpr (others_only idle job member)⟩
  simpa [isPending] using apart

end CloneQueue

namespace World

variable (world : World)

def passed : Nat → World
  | 0 => world
  | n + 1 => (passed n).tick.2

/-- The world with a repository in the place of the first one of its name. -/
def put (r : Repository) : World := { world with store.repositories := world.store.repositories.put r }

/-- The world with a job behind all that wait. -/
def await (job : CloneJob) : World := { world with clones := ⟨world.clones.jobs ++ [job]⟩ }

/-- The world with the repositories and the jobs that a passing command leaves. -/
def left (progress : CloneProgress) : World :=
  { world with store.repositories := progress.repositories, clones := ⟨progress.waiting⟩ }

/-- The world in which the end of a clone is scheduled. -/
def schedule (name : String) (delay : Nat) (outcome : CloneStatus) : Except Error World :=
  (world.clones.schedule world.store.repositories name delay outcome).map fun scheduled =>
    { world with store.repositories := scheduled.1, clones := scheduled.2 }

variable {world} {r s : Repository} {job : CloneJob} {name : String} {outcome : CloneStatus} {delay : Nat}

/-- A passing command and a change to a repository that no job waits for can be exchanged. -/
theorem tick_of_put (idle : world.clones.isPending r.name = false) : (world.put r).tick.2 = world.tick.2.put r :=
  congrArg world.left (CloneQueue.tick_after_put idle)

/-- The job that stands behind the others has its turn after them. -/
theorem tick_of_await (world : World) (job : CloneJob) :
    (world.await job).tick.2 =
      world.left (CloneQueue.advance (world.clones.tick world.store.repositories) job) :=
  congrArg world.left List.foldl_append

/-- A job behind all others that has to wait is counted down, and the others take their turns as without
it. -/
theorem tick_of_waiting (waits : 0 < job.remaining) : (world.await job).tick.2 = world.tick.2.await job.waited :=
  (tick_of_await world job).trans (congrArg world.left (CloneQueue.advance_of_waiting waits))

/-- A job that is due behind the others finds the repositories that they leave. -/
theorem tick_of_due (due : job.remaining = 0) :
    (world.await job).tick.2 =
      match CloneQueue.settle world.tick.2.store.repositories job.repository job.outcome with
      | .ok repositories => { world.tick.2 with store.repositories := repositories }
      | .error _ => world.tick.2 := by
  have turn : ∀ progress : CloneProgress, world.left (CloneQueue.advance progress job) =
      match CloneQueue.settle progress.repositories job.repository job.outcome with
      | .ok repositories => { world.left progress with store.repositories := repositories }
      | .error _ => world.left progress := by
    intro progress
    unfold CloneQueue.advance
    rw [if_pos due]
    cases CloneQueue.settle progress.repositories job.repository job.outcome <;> rfl
  exact (tick_of_await world job).trans (turn _)

theorem idle_after_passed (idle : world.clones.isPending name = false) (n : Nat) :
    (world.passed n).clones.isPending name = false := by
  induction n with
  | zero => exact idle
  | succ n ih => exact CloneQueue.idle_after_tick ih

theorem find_after_passed (idle : world.clones.isPending name = false) (n : Nat) :
    (world.passed n).store.repositories.find name = world.store.repositories.find name := by
  induction n with
  | zero => rfl
  | succ n ih => exact (CloneQueue.find_after_tick (idle_after_passed idle n)).trans ih

theorem passed_of_put (idle : world.clones.isPending r.name = false) (n : Nat) :
    (world.put r).passed n = (world.passed n).put r := by
  induction n with
  | zero => rfl
  | succ n ih => rw [passed, ih, tick_of_put (idle_after_passed idle n), passed]

/-- A job behind the others waits as long as it has to, and they go on as if it was not there. -/
theorem wait_beside_others (n : Nat) (within : n ≤ job.remaining) :
    (world.await job).passed n = (world.passed n).await { job with remaining := job.remaining - n } := by
  induction n with
  | zero => rfl
  | succ n ih =>
    rw [passed, ih (Nat.le_of_succ_le within), tick_of_waiting (Nat.sub_pos_of_lt within)]
    rfl

/-- When its turn comes, a job finds the repository that it was scheduled for, and ends its clone if it can. -/
theorem turn_behind_others (idle : world.clones.isPending name = false)
    (found : world.store.repositories.find name = .ok r) :
    (world.await ⟨name, delay, outcome⟩).passed (delay + 1) =
      match r.resolve outcome with
      | .ok s => (world.passed (delay + 1)).put s
      | .error _ => world.passed (delay + 1) := by
  rw [passed, wait_beside_others delay (Nat.le_refl _), tick_of_due (Nat.sub_self delay)]
  show (match CloneQueue.settle (world.passed (delay + 1)).store.repositories name outcome with
    | .ok repositories => { world.passed (delay + 1) with store.repositories := repositories }
    | .error _ => world.passed (delay + 1)) = _
  rw [CloneQueue.settle_is_find_and_put, find_after_passed idle, found]
  simp only [Except.bind]
  cases r.resolve outcome <;> rfl

/-- Without a delay, scheduling resolves the repository in its place or is refused; no job is made. -/
theorem schedule_at_once (idle : world.clones.isPending name = false) :
    world.schedule name 0 outcome =
      (world.store.repositories.find name).bind fun r => (r.resolve outcome).map world.put := by
  simp only [schedule, CloneQueue.schedule, idle, CloneQueue.settle_is_find_and_put, Bool.false_eq_true,
    if_false, if_true]
  cases world.store.repositories.find name with
  | error e => rfl
  | ok r => cases resolved : r.resolve outcome <;> simp [Except.bind, Except.map, resolved, put]

/-- With a delay, scheduling is always accepted for a name that no job waits for, without a look at the
repository. -/
theorem schedule_with_delay (idle : world.clones.isPending name = false) (positive : 0 < delay) :
    world.schedule name delay outcome = .ok (world.await ⟨name, delay, outcome⟩) := by
  simp only [schedule, CloneQueue.schedule, idle, Nat.ne_of_gt positive, Bool.false_eq_true, if_false]
  rfl

theorem schedule_of_pending (pending : world.clones.isPending name = true) :
    world.schedule name delay outcome = .error (.pendingClone name) := by
  simp only [schedule, CloneQueue.schedule, pending, if_true]
  rfl

theorem passed_further (world : World) (m n : Nat) : world.passed (m + n) = (world.passed m).passed n := by
  induction n with
  | zero => rfl
  | succ n ih => rw [Nat.add_succ, passed, passed, ih]

end World

theorem Environment.perform_refused_schedule {config : Config} {world : World} {name : String} {delay : Nat}
    {outcome : CloneStatus} {e : Error} (refused : world.schedule name delay outcome = .error e) :
    (Environment.mk config world).perform (.schedule name delay outcome) = ⟨config, world⟩ := by
  simp only [perform, repositories]
  cases scheduled : world.clones.schedule world.store.repositories name delay outcome with
  | error e => rfl
  | ok found => simp [World.schedule, scheduled, Except.map] at refused

/-- A clone whose end could be scheduled at once ends in the same way with a delay. The scheduling is
accepted, the repository is seen cloning until the delay is over, and with the next command the world is the
one in which the clone has ended at once and as many commands have passed, whatever else waits. -/
theorem delayed_clone_ends_like_an_immediate_one (world at_once : World) (name : String) (delay : Nat)
    (outcome : CloneStatus) (positive : 0 < delay) (immediate : world.schedule name 0 outcome = .ok at_once) :
    ∃ delayed, world.schedule name delay outcome = .ok delayed ∧
      (∃ r : Repository, r.status = .cloning ∧
        ∀ n ≤ delay, (delayed.passed n).store.repositories.get? name = some r) ∧
      delayed.passed (delay + 1) = at_once.passed (delay + 1) := by
  have idle : world.clones.isPending name = false := by
    cases pending : world.clones.isPending name with
    | false => rfl
    | true =>
      rw [World.schedule_of_pending pending] at immediate
      cases immediate
  rw [World.schedule_at_once idle] at immediate
  cases found : world.store.repositories.find name with
  | error e => simp [found, Except.bind] at immediate
  | ok r =>
    cases resolved : r.resolve outcome with
    | error e => simp [found, resolved, Except.bind, Except.map] at immediate
    | ok s =>
      obtain rfl : world.put s = at_once := by simpa [found, resolved, Except.bind, Except.map] using immediate
      obtain ⟨cloning, same⟩ := CloneQueue.resolved_from_cloning resolved
      have named : s.name = name := by simpa [same] using CloneQueue.found_by_its_name found
      refine ⟨_, World.schedule_with_delay idle positive, ⟨r, cloning, fun n within => ?_⟩, ?_⟩
      · rw [World.wait_beside_others n within]
        exact Directory.find_eq_ok_iff.mp ((World.find_after_passed idle n).trans found)
      · rw [World.turn_behind_others idle found, resolved, World.passed_of_put (named ▸ idle)]

/-- The clone of `app` is the same after four commands, beside one clone that ends, one whose repository is
missing, and one that waits on. -/
theorem clone_delayed_beside_others :
    let operations : List Operation := [.add "lib" "https://host/lib.git", .schedule "lib" 1 .failed,
      .schedule "ghost" 2 .cloned, .add "tool" "https://host/tool.git", .schedule "tool" 9 .cloned,
      .add "app" "https://host/app.git"]
    let world := ((Environment.start {} (.ofSeed 5)).after operations).world
    0 < 3 ∧ ∃ at_once delayed, world.schedule "app" 0 .cloned = .ok at_once ∧
      world.schedule "app" 3 .cloned = .ok delayed ∧
      delayed.passed 4 = at_once.passed 4 := by
  intro operations world
  obtain ⟨at_once, immediate⟩ : ∃ at_once, world.schedule "app" 0 .cloned = .ok at_once := ⟨_, rfl⟩
  obtain ⟨delayed, scheduled, -, same⟩ :=
    delayed_clone_ends_like_an_immediate_one world at_once "app" 3 .cloned (by decide) immediate
  exact ⟨by decide, at_once, delayed, immediate, scheduled, same⟩

/-- Whether the end of a clone that is over can be scheduled depends on the delay. At once it is refused, and
that leaves everything as it was. With a delay a job is taken, although it can do nothing: it waits for its
turn beside the others, and is dropped then. The repository stays as it is all along. -/
theorem clone_that_is_over_is_refused_at_once_only (world : World) (name : String) (outcome : CloneStatus)
    (r : Repository) (held : world.store.repositories.get? name = some r) (ended : r.status.isFinal = true)
    (idle : world.clones.isPending name = false) :
    (world.schedule name 0 outcome = .error (.alreadyResolved name r.status) ∧
      ∀ config, (Environment.mk config world).perform (.schedule name 0 outcome) = ⟨config, world⟩) ∧
    ∀ delay, 0 < delay → ∃ next, world.schedule name delay outcome = .ok next ∧
      next.clones.jobs = world.clones.jobs ++ [⟨name, delay, outcome⟩] ∧
      (∀ n ≤ delay, (next.passed n).clones.isPending name = true) ∧
      next.passed (delay + 1) = world.passed (delay + 1) ∧
      ∀ n, (next.passed n).store = (world.passed n).store ∧
        (world.passed n).store.repositories.get? name = some r := by
  have found := Directory.find_eq_ok_iff.mpr held
  have refused : r.resolve outcome = .error (.alreadyResolved name r.status) := by
    rw [Repository.resolve, if_pos ended, CloneQueue.found_by_its_name found]
  have at_once : world.schedule name 0 outcome = .error (.alreadyResolved name r.status) := by
    rw [World.schedule_at_once idle, found]
    simp only [Except.bind, refused, Except.map]
  refine ⟨⟨at_once, fun _ => Environment.perform_refused_schedule at_once⟩, fun delay positive => ?_⟩
  have dropped : (world.await ⟨name, delay, outcome⟩).passed (delay + 1) = world.passed (delay + 1) := by
    rw [World.turn_behind_others idle found, refused]
  refine ⟨_, World.schedule_with_delay idle positive, rfl, fun n within => ?_, dropped, fun n => ⟨?_, ?_⟩⟩
  · rw [World.wait_beside_others n within]
    simp [World.await, CloneQueue.isPending]
  · rcases Nat.lt_or_ge delay n with later | within
    · obtain ⟨k, rfl⟩ : ∃ k, n = delay + 1 + k := Nat.exists_eq_add_of_le later
      rw [World.passed_further, dropped, ← World.passed_further]
    · rw [World.wait_beside_others n within]
      rfl
  · exact Directory.find_eq_ok_iff.mp ((World.find_after_passed idle n).trans found)

/-- The clone of `app` has failed. It cannot be scheduled again at once, but with a delay. -/
theorem failed_clone_is_scheduled_beside_another :
    let operations : List Operation := [.add "app" "https://host/app.git", .schedule "app" 0 .failed,
      .add "lib" "https://host/lib.git", .schedule "lib" 1 .cloned]
    let world := ((Environment.start {} (.ofSeed 5)).after operations).world
    let app : Repository := ⟨"app", "https://host/app.git", .failed⟩
    world.store.repositories.get? "app" = some app ∧ app.status.isFinal = true ∧
      world.clones.isPending "app" = false ∧
      world.schedule "app" 0 .cloned = .error (.alreadyResolved "app" .failed) ∧
      ∃ next, world.schedule "app" 1 .cloned = .ok next ∧ next.passed 2 = world.passed 2 := by
  intro operations world app
  have held : world.store.repositories.get? "app" = some app := by decide +kernel
  have idle : world.clones.isPending "app" = false := by decide +kernel
  obtain ⟨⟨refused, -⟩, delayed⟩ :=
    clone_that_is_over_is_refused_at_once_only world "app" .cloned app held rfl idle
  obtain ⟨next, scheduled, -, -, dropped, -⟩ := delayed 1 (by decide)
  exact ⟨held, rfl, idle, refused, next, scheduled, dropped⟩

/-- There is a clone that is over and has no job that waits, and yet its end is scheduled without an error. -/
theorem clone_that_is_over_is_scheduled_again :
    ¬ ∀ (world : World) (name : String) (delay : Nat) (outcome : CloneStatus) (r : Repository),
      world.store.repositories.get? name = some r → r.status.isFinal = true →
      world.clones.isPending name = false → ∃ e, world.schedule name delay outcome = .error e := by
  intro always
  let operations : List Operation := [.add "app" "https://host/app.git", .schedule "app" 0 .failed]
  obtain ⟨e, refused⟩ := always ((Environment.start {} (.ofSeed 5)).after operations).world "app" 1 .cloned
    ⟨"app", "https://host/app.git", .failed⟩ (by decide +kernel) rfl (by decide +kernel)
  cases refused

end CloudTerminal
