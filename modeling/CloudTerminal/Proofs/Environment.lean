import Mathlib.Data.List.Nodup
import CloudTerminal.Proofs.CloneQueue

/-!
Environments in which anything may be done with the queue of clones. Unlike in a session, clones are scheduled
under any name and with any outcome, repositories are taken out while their clones wait, commands pass without
a line, and the settings change. What a passing command does is then told by the jobs that are due alone
(`tick_spec`). `Evolves` is what every operation does to the repositories, and what operations that follow one
another do (`Evolves.trans`): the ones that are not taken out stay in front, in their order, and none of them
ends its clone twice (`repositories_settle_once`).
-/

namespace CloudTerminal

/-- What may become of a repository: nothing, or the end of its clone. -/
inductive Repository.Settles (r : Repository) : Repository → Prop where
  | still : Settles r r
  | ended (outcome : CloneStatus) (cloning : r.status = .cloning) (final : outcome.isFinal = true) :
    Settles r { r with status := outcome }

/-- A repository is seen as it is for a while, and then, if its clone is under way, with its clone ended. -/
def Repository.SettlesOnce (r : Repository) (seen : List (Option Repository)) : Prop :=
  ∃ before after outcome,
    seen = List.replicate before (some r) ++ List.replicate after (some { r with status := outcome }) ∧
      (after = 0 ∨ r.status = .cloning ∧ outcome.isFinal = true)

namespace Repository.Settles

variable {r s t : Repository}

theorem keeps_name_and_url (settles : r.Settles s) : s.name = r.name ∧ s.url = r.url := by
  cases settles <;> exact ⟨rfl, rfl⟩

theorem trans (first : r.Settles s) (second : s.Settles t) : r.Settles t := by
  cases first with
  | still => exact second
  | ended outcome cloning final =>
    cases second with
    | still => exact .ended outcome cloning final
    | ended _ again _ => exact absurd again ((CloneStatus.isFinal_iff outcome).mp final)

/-- The turn of a job settles every repository or leaves it. -/
theorem of_turn (job : CloneJob) (r : Repository) : r.Settles (job.settles r) := by
  unfold CloneJob.settles
  split
  · rename_i fit
    exact .ended job.outcome fit.2.1 fit.2.2
  · exact .still

end Repository.Settles

namespace CloneQueue

variable {d : Directory Repository}

/-- What the turns of some jobs make of a repository, one after the other. -/
def settleAll (jobs : List CloneJob) (r : Repository) : Repository := jobs.foldl (fun r job => job.settles r) r

/-- The jobs that have waited long enough. -/
def due (queue : CloneQueue) : List CloneJob := queue.jobs.filter (·.remaining == 0)

theorem settles_of_turns (jobs : List CloneJob) (r : Repository) : r.Settles (settleAll jobs r) := by
  induction jobs generalizing r with
  | nil => exact .still
  | cons job rest ih => exact (Repository.Settles.of_turn job r).trans (ih (job.settles r))

/-- A turn lets the clone end, or leaves the repositories when it cannot end. -/
theorem advance_of_due {progress : CloneProgress} {job : CloneJob} (distinct : progress.repositories.Distinct)
    (due : job.remaining = 0) :
    (advance progress job).repositories.toList = progress.repositories.toList.map job.settles ∧
      (advance progress job).waiting = progress.waiting := by
  unfold advance
  rw [if_pos due]
  rcases settle_spec distinct job with ⟨repositories, settled, list⟩ | ⟨⟨e, refused⟩, unchanged⟩
  · rw [settled]
    exact ⟨list, rfl⟩
  · rw [refused]
    exact ⟨((List.map_congr_left unchanged).trans (List.map_id' _)).symm, rfl⟩

/-- All turns of a passing command together: the jobs that are due settle the repositories, in the order of
the queue, and the others wait one command less. The induction is on the jobs, with the queue so far in
`progress`. -/
private theorem advance_all_spec (jobs : List CloneJob) (progress : CloneProgress)
    (distinct : progress.repositories.Distinct) :
    (jobs.foldl advance progress).repositories.toList =
        progress.repositories.toList.map (settleAll (jobs.filter (·.remaining == 0))) ∧
      (jobs.foldl advance progress).repositories.Distinct ∧
      (jobs.foldl advance progress).waiting =
        progress.waiting ++ (jobs.filter (·.remaining != 0)).map CloneJob.waited := by
  induction jobs generalizing progress with
  | nil => exact ⟨(List.map_id _).symm, distinct, by simp⟩
  | cons job rest ih =>
    rw [List.foldl_cons]
    by_cases due : job.remaining = 0
    · obtain ⟨list, same⟩ := advance_of_due distinct due
      obtain ⟨repositories, later, waiting⟩ := ih _ (distinct_of_settled distinct list)
      rw [List.filter_cons_of_pos (by simpa using due), List.filter_cons_of_neg (by simpa using due)]
      refine ⟨?_, later, by rw [waiting, same]⟩
      rw [repositories, list, List.map_map]
      rfl
    · rw [advance_of_waiting (Nat.pos_of_ne_zero due)]
      obtain ⟨repositories, later, waiting⟩ :=
        ih { progress with waiting := progress.waiting ++ [job.waited] } distinct
      rw [List.filter_cons_of_neg (by simpa using due), List.filter_cons_of_pos (by simpa using due)]
      refine ⟨repositories, later, ?_⟩
      rw [waiting, List.append_assoc]
      rfl

/-- What a command that passes does, whatever waits: the jobs that are due have their turns in order, and the
others wait on. -/
theorem tick_spec (queue : CloneQueue) (distinct : d.Distinct) :
    (queue.tick d).repositories.toList = d.toList.map (settleAll queue.due) ∧
      (queue.tick d).repositories.Distinct ∧
      (queue.tick d).waiting = (queue.jobs.filter (·.remaining != 0)).map CloneJob.waited := by
  simpa [tick, due] using advance_all_spec queue.jobs { repositories := d } distinct

/-- The jobs that wait on still name distinct repositories. -/
theorem names_of_waiting (queue : CloneQueue) (distinct : d.Distinct)
    (single : (queue.jobs.map (·.repository)).Nodup) :
    ((queue.tick d).waiting.map (·.repository)).Nodup := by
  rw [(queue.tick_spec distinct).2.2, List.map_map]
  exact single.sublist (List.filter_sublist.map _)

theorem not_pending_iff {queue : CloneQueue} {name : String} :
    queue.isPending name = false ↔ name ∉ queue.jobs.map (·.repository) := by
  simp [isPending]

end CloneQueue

/-- What can be done in an environment. -/
inductive Operation where
  /-- A line, at the time that the clock shows. -/
  | run (clock line : String)
  | schedule (name : String) (delay : Nat) (outcome : CloneStatus)
  /-- The passing of a command. -/
  | tick
  /-- A repository whose clone begins. -/
  | add (name url : String)
  | remove (name : String)
  | configure (config : Config)

/-- The names that an operation takes out. -/
def Operation.removed : Operation → List String
  | .remove name => [name]
  | _ => []

/-- What commands work on and the settings they see, without a session around them. -/
structure Environment where
  config : Config
  world : World

namespace Environment

/-- The environment without resources, with any source of identifiers. -/
def start (config : Config) (ids : IdSource) : Environment := { config, world := { ids } }

variable (environment : Environment)

def repositories : Directory Repository := environment.world.store.repositories

/-- The environment after an operation. An operation that is refused leaves it, and no command passes by itself. -/
def perform : Operation → Environment
  | .run clock line =>
    match Line.parse line with
    | none => environment
    | some words =>
      { environment with
        world := (Terminal.registry.run ⟨environment.config, clock⟩ environment.world words).2 }
  | .schedule name delay outcome =>
    match environment.world.clones.schedule environment.repositories name delay outcome with
    | .error _ => environment
    | .ok (repositories, clones) =>
      { environment with world := { environment.world with store.repositories := repositories, clones } }
  | .tick => { environment with world := environment.world.tick.2 }
  | .add name url =>
    match environment.repositories.add (Repository.begin name url) with
    | .error _ => environment
    | .ok repositories =>
      { environment with world := { environment.world with store.repositories := repositories } }
  | .remove name =>
    match environment.repositories.remove name with
    | .error _ => environment
    | .ok (_, repositories) =>
      { environment with world := { environment.world with store.repositories := repositories } }
  | .configure config => { environment with config }

def after (operations : List Operation) : Environment := operations.foldl perform environment

/-- The environment as it is found before, between and after some operations. -/
def course (operations : List Operation) : List Environment := operations.scanl perform environment

end Environment

/-- How repositories go on while some names are taken out: the others stay in front, in their order. -/
def Evolves (removed : List String) (before after : List Repository) : Prop :=
  ∃ (settled : Repository → Repository) (added : List Repository),
    (∀ r : Repository, r.Settles (settled r)) ∧
    after = (before.filter (·.name ∉ removed)).map settled ++ added

namespace Evolves

variable {removed more : List String} {before between after : List Repository}

theorem member {r : Repository} (evolves : Evolves removed before after) (held : r ∈ before)
    (stays : r.name ∉ removed) : ∃ s ∈ after, r.Settles s := by
  obtain ⟨settled, added, settles, rfl⟩ := evolves
  refine ⟨settled r, List.mem_append_left _ (List.mem_map_of_mem ?_), settles r⟩
  exact List.mem_filter.mpr ⟨held, by simpa using stays⟩

theorem of_settled {settled : Repository → Repository} (settles : ∀ r : Repository, r.Settles (settled r))
    (list : after = before.map settled) : Evolves [] before after :=
  ⟨settled, [], settles, by simp [list]⟩

theorem of_added {added : List Repository} (list : after = before ++ added) : Evolves [] before after :=
  ⟨id, added, fun _ => .still, by simp [list]⟩

theorem refl (repositories : List Repository) : Evolves [] repositories repositories :=
  of_added (List.append_nil _).symm

theorem trans (first : Evolves removed before between) (second : Evolves more between after) :
    Evolves (removed ++ more) before after := by
  obtain ⟨settled, added, settles, rfl⟩ := first
  obtain ⟨settled', added', settles', rfl⟩ := second
  have named : ∀ r, (settled r).name = r.name := fun r => (settles r).keeps_name_and_url.1
  have kept : ((before.filter (·.name ∉ removed)).map settled).filter (·.name ∉ more) =
      (before.filter (·.name ∉ removed ++ more)).map settled := by
    rw [List.filter_map, List.filter_filter]
    congr 1
    refine List.filter_congr fun r _ => ?_
    simp [named, not_or, Bool.and_comm]
  refine ⟨settled' ∘ settled, (added.filter (·.name ∉ more)).map settled' ++ added',
    fun r => (settles r).trans (settles' _), ?_⟩
  rw [List.filter_append, List.map_append, kept, List.map_map, List.append_assoc]

end Evolves

/-- No two repositories have one name, and no two of the jobs that wait. -/
structure World.Sound (world : World) : Prop where
  distinct : world.store.repositories.Distinct
  single : (world.clones.jobs.map (·.repository)).Nodup

/-- What every operation does to a sound world. -/
def World.Steps (removed : List String) (world next : World) : Prop :=
  next.Sound ∧ Evolves removed world.store.repositories.toList next.store.repositories.toList

namespace World.Sound

variable {world next : World}

theorem stays (sound : world.Sound) : World.Steps [] world world := ⟨sound, .refl _⟩

theorem another_job {job : CloneJob} (sound : world.Sound) (idle : world.clones.isPending job.repository = false) :
    ((world.clones.jobs ++ [job]).map (·.repository)).Nodup := by
  rw [List.map_append, List.map_singleton, ← List.concat_eq_append]
  exact List.Nodup.concat (CloneQueue.not_pending_iff.mp idle) sound.single

/-- A line that is carried out adds a repository, with or without a job, or leaves them all. -/
theorem line {setting : Setting} {words : Line} {result : Except Error Reply} (sound : world.Sound)
    (effect : LineEffect setting world words (result, next)) : World.Steps [] world next := by
  cases effect with
  | clone url name name? said named clear free idle =>
    have distinct := Directory.distinct_add sound.distinct (Directory.add_of_free
      (Repository.cloneOf setting.config.cloneDelay url name) free)
    refine ⟨⟨distinct, ?_⟩, .of_added rfl⟩
    unfold CloneJob.ofClone
    split
    · simpa using sound.single
    · exact sound.another_job idle
  | _ => exact ⟨⟨sound.distinct, sound.single⟩, .refl _⟩

/-- A schedule settles the one repository at once or adds one job for a name that no job waits for. -/
theorem schedule (sound : world.Sound) {name : String} {delay : Nat} {outcome : CloneStatus}
    {repositories : Directory Repository} {clones : CloneQueue}
    (scheduled : world.clones.schedule world.store.repositories name delay outcome = .ok (repositories, clones)) :
    World.Steps [] world { world with store.repositories := repositories, clones } := by
  unfold CloneQueue.schedule at scheduled
  split at scheduled
  · cases scheduled
  · rename_i idle
    split at scheduled
    · rcases CloneQueue.settle_spec sound.distinct { repository := name, remaining := delay, outcome } with
        ⟨after, settled, list⟩ | ⟨⟨e, refused⟩, _⟩
      · rw [settled] at scheduled
        obtain ⟨rfl, rfl⟩ := Prod.mk.inj (Except.ok.inj scheduled)
        exact ⟨⟨CloneQueue.distinct_of_settled sound.distinct list, sound.single⟩,
          .of_settled (Repository.Settles.of_turn _) list⟩
      · rw [refused] at scheduled
        cases scheduled
    · obtain ⟨rfl, rfl⟩ := Prod.mk.inj (Except.ok.inj scheduled)
      exact ⟨⟨sound.distinct, sound.another_job (by simpa using idle)⟩, .refl _⟩

/-- A passing command settles repositories and takes none out. -/
theorem tick (sound : world.Sound) : World.Steps [] world world.tick.2 := by
  obtain ⟨list, distinct, waiting⟩ := world.clones.tick_spec sound.distinct
  refine ⟨⟨distinct, ?_⟩, .of_settled (CloneQueue.settles_of_turns world.clones.due) list⟩
  exact CloneQueue.names_of_waiting world.clones sound.distinct sound.single

theorem add (sound : world.Sound) {r : Repository} {repositories : Directory Repository}
    (added : world.store.repositories.add r = .ok repositories) :
    World.Steps [] world { world with store.repositories := repositories } :=
  ⟨⟨Directory.distinct_add sound.distinct added, sound.single⟩, .of_added (Directory.add_eq_ok_iff.mp added).2⟩

theorem remove (sound : world.Sound) {name : String} {r : Repository} {repositories : Directory Repository}
    (removed : world.store.repositories.remove name = .ok (r, repositories)) :
    World.Steps [name] world { world with store.repositories := repositories } := by
  obtain ⟨front, back, found, list⟩ := Directory.remove_eq_ok_iff.mp removed
  have without : world.store.repositories.toList.filter (Named.name · != name) = front ++ back :=
    congrArg Directory.toList (Directory.without_at_the_place sound.distinct found)
  refine ⟨⟨Directory.distinct_remove sound.distinct removed, sound.single⟩, id, [], fun _ => .still, ?_⟩
  rw [list, List.map_id, List.append_nil, ← without]
  exact List.filter_congr fun r _ => by simp [Named.name, bne, beq_eq_decide]

theorem remove_nothing (sound : world.Sound) {name : String}
    (absent : ∀ r ∈ world.store.repositories.toList, r.name ≠ name) : World.Steps [name] world world := by
  refine ⟨sound, id, [], fun _ => .still, ?_⟩
  rw [List.map_id, List.append_nil, List.filter_eq_self.mpr fun r member => by simpa using absent r member]

end World.Sound

namespace Environment

/-- Every operation keeps the soundness of a world and takes out what it names. This is the step of the
induction over all operations. -/
theorem perform_steps {environment : Environment} (sound : environment.world.Sound) (operation : Operation) :
    World.Steps operation.removed environment.world (environment.perform operation).world := by
  cases operation with
  | run clock line =>
    simp only [perform]
    split
    · exact sound.stays
    · exact sound.line (run_has_effect _ _ _)
  | schedule name delay outcome =>
    simp only [perform]
    split
    · exact sound.stays
    · rename_i scheduled
      exact sound.schedule scheduled
  | tick => exact sound.tick
  | add name url =>
    simp only [perform]
    split
    · exact sound.stays
    · rename_i added
      exact sound.add added
  | remove name =>
    simp only [perform]
    split
    · rename_i refused
      refine sound.remove_nothing (Directory.split?_eq_none_iff.mp ?_)
      unfold Directory.remove at refused
      split at refused
      · assumption
      · cases refused
    · rename_i removed
      exact sound.remove removed
  | configure config => exact sound.stays

/-- Operations that follow one another. -/
theorem after_steps {environment : Environment} (sound : environment.world.Sound) (operations : List Operation) :
    World.Steps (operations.flatMap Operation.removed) environment.world (environment.after operations).world := by
  induction operations generalizing environment with
  | nil => exact sound.stays
  | cons operation rest ih =>
    obtain ⟨next, first⟩ := perform_steps sound operation
    obtain ⟨last, second⟩ := ih next
    rw [List.flatMap_cons]
    exact ⟨last, first.trans second⟩

theorem sound_at_the_start (config : Config) (ids : IdSource) : (start config ids).world.Sound :=
  ⟨List.nodup_nil, List.nodup_nil⟩

theorem course_cons (environment : Environment) (operation : Operation) (rest : List Operation) :
    environment.course (operation :: rest) = environment :: (environment.perform operation).course rest :=
  List.scanl_cons

/-- A repository that is not taken out is seen as it is for a while, and then, if at all, with its clone ended. -/
theorem seen_to_settle_once {environment : Environment} (sound : environment.world.Sound) (r : Repository)
    (held : r ∈ environment.repositories.toList) (operations : List Operation)
    (stays : r.name ∉ operations.flatMap Operation.removed) :
    r.SettlesOnce ((environment.course operations).map (·.repositories.get? r.name)) := by
  have here : environment.repositories.get? r.name = some r :=
    (Directory.lookup_finds_exactly_the_member sound.distinct).mpr ⟨held, rfl⟩
  induction operations generalizing environment r with
  | nil => exact ⟨1, 0, .cloning, by simp [course, here], .inl rfl⟩
  | cons operation rest ih =>
    rw [List.flatMap_cons, List.mem_append, not_or] at stays
    obtain ⟨next, evolves⟩ := perform_steps sound operation
    obtain ⟨s, present, settles⟩ := evolves.member held stays.1
    have named := settles.keeps_name_and_url.1
    have there := (Directory.lookup_finds_exactly_the_member next.distinct).mpr ⟨present, rfl⟩
    obtain ⟨before, after, outcome, seen, once⟩ := ih next s present (by rw [named]; exact stays.2) there
    rw [named] at seen
    rw [course_cons, List.map_cons, here, seen]
    cases settles with
    | still => exact ⟨before + 1, after, outcome, rfl, once⟩
    | ended status cloning final =>
      -- The clone has just ended, so nothing can follow.
      rcases once with rfl | ⟨again, _⟩
      · exact ⟨1, before, status, by simp, .inr ⟨cloning, final⟩⟩
      · exact absurd again ((CloneStatus.isFinal_iff status).mp final)

end Environment

/-- In an environment that starts without resources, whatever is done in whatever order: at all times the jobs
that wait have distinct names. As long as it is not taken out, a repository keeps its name, its URL and its
place among the others, and it is seen as it was at first and then, if its clone was under way, with its clone
ended in one way. -/
theorem repositories_settle_once (config : Config) (ids : IdSource) (past later : List Operation) :
    let before := (Environment.start config ids).after past
    let now := before.after later
    let kept := before.repositories.filter (·.name ∉ later.flatMap Operation.removed)
    (now.world.clones.jobs.map (·.repository)).Nodup ∧
      now.repositories.Distinct ∧
      kept.map (fun r => (r.name, r.url)) <+: now.repositories.toList.map (fun r => (r.name, r.url)) ∧
      ∀ r ∈ kept, r.SettlesOnce ((before.course later).map (·.repositories.get? r.name)) := by
  intro before now kept
  have sound : before.world.Sound := (Environment.after_steps (Environment.sound_at_the_start config ids) past).1
  obtain ⟨later_sound, evolves⟩ := Environment.after_steps sound later
  refine ⟨later_sound.single, later_sound.distinct, ?_, ?_⟩
  · obtain ⟨settled, added, settles, list⟩ := evolves
    have alike : (kept.map settled).map (fun r => (r.name, r.url)) = kept.map fun r => (r.name, r.url) := by
      rw [List.map_map]
      exact List.map_congr_left fun r _ => Prod.ext (settles r).keeps_name_and_url.1
        (settles r).keeps_name_and_url.2
    refine ⟨added.map fun r => (r.name, r.url), ?_⟩
    rw [← alike, ← List.map_append]
    exact congrArg _ list.symm
  · intro r member
    obtain ⟨held, stays⟩ := List.mem_filter.mp member
    exact Environment.seen_to_settle_once sound r held later (by simpa using stays)

/-- The clone of `app` ends although that of `lib`, scheduled before it, has lost its repository, and it
cannot be ended again. -/
theorem clone_ends_beside_a_stale_job :
    let past : List Operation := [.add "lib" "https://host/lib.git", .schedule "lib" 1 .failed,
      .run "12:00:00" "git clone https://host/app.git", .configure { cloneDelay := 0 }]
    let later : List Operation := [.tick, .remove "lib", .schedule "app" 0 .failed, .tick, .tick, .tick,
      .schedule "app" 0 .failed]
    let before := (Environment.start { cloneDelay := 3 } (.ofSeed 5)).after past
    let app := Repository.begin "app" "https://host/app.git"
    app ∈ before.repositories.filter (·.name ∉ later.flatMap Operation.removed) ∧
      app.SettlesOnce ((before.course later).map (·.repositories.get? "app")) ∧
      (before.after later).repositories.toList = [{ app with status := .cloned }] := by
  intro past later before app
  have held : app ∈ before.repositories.filter (·.name ∉ later.flatMap Operation.removed) := by decide +kernel
  have ended : (before.after later).repositories.toList = [{ app with status := .cloned }] := by decide +kernel
  exact ⟨held, (repositories_settle_once { cloneDelay := 3 } (.ofSeed 5) past later).2.2.2 app held, ended⟩

end CloudTerminal
