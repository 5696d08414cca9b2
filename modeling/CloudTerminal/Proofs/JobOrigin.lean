import CloudTerminal.Proofs.Environment

/-!
Where the end of a clone comes from. An environment is looked at before each of its operations
(`Environment.stage`), and what holds there but has not held at the start holds since one of them
(`Since.exists_first`). A job that waits under a name since some operation is the one that this operation has
scheduled, with as many commands less to wait as have passed (`job_counts_from_its_schedule`). So a clone that
ends when a command passes ends in the way, and after the delay, that has been scheduled under its name. Jobs
know a repository by nothing but its name, though, and a job that has lost its repository waits on: it ends
the clone of the next repository of that name (`left_over_job_ends_a_later_clone`), unless that is added when
no such job waits.
-/

namespace CloudTerminal

/-- What has not held at the first time, and at all times after it until now. -/
structure Since (holds : Nat → Prop) (first now : Nat) : Prop where
  earlier : first < now
  fresh : ¬ holds first
  lasting : ∀ time ≤ now, first < time → holds time

namespace Since

variable {holds : Nat → Prop} {first now : Nat}

instance [DecidablePred holds] : Decidable (Since holds first now) :=
  decidable_of_iff (first < now ∧ ¬ holds first ∧ ∀ time ≤ now, first < time → holds time)
    ⟨fun ⟨earlier, fresh, lasting⟩ => ⟨earlier, fresh, lasting⟩,
      fun since => ⟨since.earlier, since.fresh, since.lasting⟩⟩

theorem of_last (fresh : ¬ holds now) (here : holds (now + 1)) : Since holds now (now + 1) := by
  refine ⟨Nat.lt_succ_self now, fresh, fun time within later => ?_⟩
  obtain rfl : time = now + 1 := by omega
  exact here

theorem step (since : Since holds first now) (here : holds (now + 1)) : Since holds first (now + 1) := by
  refine ⟨Nat.lt_succ_of_lt since.earlier, since.fresh, fun time within later => ?_⟩
  rcases Nat.le_succ_iff.mp within with before | rfl
  · exact since.lasting time before later
  · exact here

/-- What does not hold at first and holds now has begun to hold at some time, and has held since. The
induction goes back from now. -/
theorem exists_first (start : ¬ holds 0) (here : holds now) : ∃ first, Since holds first now := by
  induction now with
  | zero => exact absurd here start
  | succ now ih =>
    by_cases before : holds now
    · obtain ⟨first, since⟩ := ih before
      exact ⟨first, since.step here⟩
    · exact ⟨now, of_last before here⟩

end Since

def Operation.isTick : Operation → Bool
  | .tick => true
  | _ => false

/-- The number of commands that pass after the first operation and before now. -/
def Operation.passed (operations : List Operation) (first now : Nat) : Nat :=
  ((operations.take now).drop (first + 1)).countP isTick

/-- The operation asks for a job when these settings are in force. A line asks for the job of its clone, which
waits as long as the settings say. -/
inductive Operation.Schedules (config : Config) : Operation → CloneJob → Prop where
  | schedule (name : String) (delay : Nat) (outcome : CloneStatus) :
    Schedules config (.schedule name delay outcome) ⟨name, delay, outcome⟩
  | line (clock line url name : String) (name? : Option String)
      (said : Line.parse line = some ⟨"git", "clone" :: url :: name?.toList⟩)
      (named : Repository.directoryFor url name? = .ok name) :
    Schedules config (.run clock line) ⟨name, config.cloneDelay, Repository.cloneOutcome url⟩

namespace CloneQueue

variable {d : Directory Repository}

/-- A clone that has ended cannot be settled in another way. -/
theorem ended_stays_ended {r s : Repository} (ended : r.status.isFinal = true) (settles : r.Settles s) :
    s = r := by
  cases settles with
  | still => rfl
  | ended _ cloning _ => exact absurd cloning ((CloneStatus.isFinal_iff _).mp ended)

/-- Turns leave a repository alone, or one of them has ended its clone. -/
theorem settled_by_one_of_the_jobs (jobs : List CloneJob) (r : Repository) :
    settleAll jobs r = r ∨
      ∃ job ∈ jobs, job.repository = r.name ∧ settleAll jobs r = { r with status := job.outcome } := by
  induction jobs generalizing r with
  | nil => exact .inl rfl
  | cons job rest ih =>
    have turn : settleAll (job :: rest) r = settleAll rest (job.settles r) := rfl
    by_cases fit : r.name = job.repository ∧ r.status = .cloning ∧ job.outcome.isFinal = true
    · rw [turn, settles_the_cloning fit.1 fit.2.1 fit.2.2]
      -- The jobs after it find a clone that is over.
      have later := settles_of_turns rest { r with status := job.outcome }
      exact .inr ⟨job, List.mem_cons_self, fit.1.symm, ended_stays_ended fit.2.2 later⟩
    · have unchanged : job.settles r = r := if_neg fit
      rw [turn, unchanged]
      rcases ih r with same | ⟨later, member, named, ended⟩
      · exact .inl same
      · exact .inr ⟨later, List.mem_cons_of_mem _ member, named, ended⟩

/-- A repository that a passing command changes has had a job of its name that was due. -/
theorem changed_by_a_due_job {queue : CloneQueue} {name : String} {r s : Repository} (distinct : d.Distinct)
    (before : d.get? name = some r) (after : (queue.tick d).repositories.get? name = some s)
    (changed : s.status ≠ r.status) :
    ⟨name, 0, s.status⟩ ∈ queue.jobs := by
  obtain ⟨list, still_distinct, -⟩ := queue.tick_spec distinct
  obtain ⟨held, named⟩ := (Directory.lookup_finds_exactly_the_member distinct).mp before
  obtain ⟨present, same⟩ := (Directory.lookup_finds_exactly_the_member still_distinct).mp after
  rw [list] at present
  obtain ⟨other, member, rfl⟩ := List.mem_map.mp present
  have kept := (settles_of_turns queue.due other).keeps_name_and_url.1
  obtain rfl : other = r :=
    List.inj_on_of_nodup_map distinct member held ((kept.symm.trans same).trans named.symm)
  rcases settled_by_one_of_the_jobs queue.due other with unchanged | ⟨job, due, of_it, turned⟩
  · exact absurd (congrArg Repository.status unchanged) changed
  · obtain ⟨waits, ready⟩ := List.mem_filter.mp due
    have this_job : job = ⟨name, 0, (settleAll queue.due other).status⟩ := by
      obtain ⟨repository, remaining, outcome⟩ := job
      obtain rfl : remaining = 0 := by simpa using ready
      rw [turned]
      exact congrArg (CloneJob.mk · 0 outcome) (of_it.trans named)
    exact this_job ▸ waits

/-- What scheduling does if it is not refused: names stay, and at most the one job is added. -/
theorem schedule_spec {queue queue' : CloneQueue} {after : Directory Repository} {name : String} {delay : Nat}
    {outcome : CloneStatus} (scheduled : queue.schedule d name delay outcome = .ok (after, queue')) :
    queue.isPending name = false ∧ after.toList.map Named.name = d.toList.map (Named.name (α := Repository)) ∧
      ∀ job ∈ queue'.jobs, job ∈ queue.jobs ∨ job = ⟨name, delay, outcome⟩ := by
  unfold schedule at scheduled
  split at scheduled
  · cases scheduled
  · rename_i idle
    refine ⟨by simpa using idle, ?_⟩
    split at scheduled
    · cases settled : settle d name outcome with
      | error e =>
        rw [settled] at scheduled
        cases scheduled
      | ok repositories =>
        rw [settled] at scheduled
        obtain ⟨rfl, rfl⟩ := Prod.mk.inj (Except.ok.inj scheduled)
        refine ⟨?_, fun job => .inl⟩
        simpa [Function.comp_def, Named.name] using congrArg (List.map Prod.fst)
          (settle_keeps_names_and_urls settled)
    · obtain ⟨rfl, rfl⟩ := Prod.mk.inj (Except.ok.inj scheduled)
      exact ⟨rfl, fun job member => by simpa using member⟩

theorem pending_iff {queue : CloneQueue} {name : String} :
    queue.isPending name = true ↔ ∃ job ∈ queue.jobs, job.repository = name := by
  simp [isPending]

end CloneQueue

namespace Environment

variable {environment : Environment} {operations : List Operation} {operation : Operation} {job : CloneJob}
  {number first now : Nat} {name : String} {outcome : CloneStatus}

/-- The environment before the operation of a number. -/
def stage (environment : Environment) (operations : List Operation) (number : Nat) : Environment :=
  environment.after (operations.take number)

/-- Whether a repository has the name before the operation of a number. -/
def Holds (environment : Environment) (operations : List Operation) (name : String) (number : Nat) : Prop :=
  (environment.stage operations number).repositories.contains name = true

/-- Whether a job waits under the name before the operation of a number. -/
def Awaits (environment : Environment) (operations : List Operation) (name : String) (number : Nat) : Prop :=
  (environment.stage operations number).world.clones.isPending name = true

instance : DecidablePred (environment.Holds operations name) := fun _ => inferInstanceAs (Decidable (_ = true))

instance : DecidablePred (environment.Awaits operations name) := fun _ => inferInstanceAs (Decidable (_ = true))

/-- The operation of a number lets a command pass, with which the clone of a repository ends. -/
structure EndsAt (environment : Environment) (operations : List Operation) (number : Nat) (name : String)
    (outcome : CloneStatus) : Prop where
  passes : operations[number]? = some .tick
  cloning : ((environment.stage operations number).repositories.get? name).map (·.status) = some .cloning
  ended : ((environment.stage operations (number + 1)).repositories.get? name).map (·.status) = some outcome
  final : outcome.isFinal = true

theorem stage_succ (here : operations[number]? = some operation) :
    environment.stage operations (number + 1) = (environment.stage operations number).perform operation := by
  unfold stage after
  rw [List.take_add_one, here, Option.toList_some, List.foldl_append]
  rfl

theorem stage_is_sound (sound : environment.world.Sound) (operations : List Operation) (number : Nat) :
    (environment.stage operations number).world.Sound :=
  (after_steps sound (operations.take number)).1

/-- Of two stages in a row, only a passing command between them is counted. -/
theorem passed_succ (here : operations[now]? = some operation) (later : first < now) :
    Operation.passed operations first (now + 1) =
      Operation.passed operations first now + if operation.isTick then 1 else 0 := by
  have inside : now < operations.length := (List.getElem?_eq_some_iff.mp here).1
  have long : first + 1 ≤ (operations.take now).length := by
    rw [List.length_take]
    omega
  rw [Operation.passed, List.take_add_one, here, Option.toList_some, List.drop_append_of_le_length long,
    List.countP_append, List.countP_singleton]
  rfl

/-- A job that waits after an operation has waited before it, with one command more if one has passed, or
there was none of its name and the operation has asked for it under the settings in force. -/
theorem job_waited_or_is_new (sound : environment.world.Sound) (operation : Operation)
    (waits : job ∈ (environment.perform operation).world.clones.jobs) :
    (∃ before ∈ environment.world.clones.jobs,
        before.repository = job.repository ∧ before.outcome = job.outcome ∧
          before.remaining = job.remaining + if operation.isTick then 1 else 0) ∨
      environment.world.clones.isPending job.repository = false ∧ operation.Schedules environment.config job := by
  have as_before {operation : Operation} (quiet : operation.isTick = false)
      (held : job ∈ environment.world.clones.jobs) :
      ∃ before ∈ environment.world.clones.jobs,
        before.repository = job.repository ∧ before.outcome = job.outcome ∧
          before.remaining = job.remaining + if operation.isTick then 1 else 0 :=
    ⟨job, held, rfl, rfl, by simp [quiet]⟩
  cases operation with
  | run clock line =>
    simp only [perform] at waits
    split at waits
    · exact .inl (as_before rfl waits)
    · rename_i words parsed
      have effect := run_has_effect ⟨environment.config, clock⟩ environment.world words
      generalize Terminal.registry.run ⟨environment.config, clock⟩ environment.world words = ended at effect waits
      cases effect with
      | clone url name name? said named clear free idle =>
        rcases List.mem_append.mp waits with held | begun
        · exact .inl (as_before rfl held)
        · unfold CloneJob.ofClone at begun
          split at begun
          · cases begun
          · rw [List.mem_singleton.mp begun]
            exact .inr ⟨idle, .line clock line url name name? (said ▸ parsed) named⟩
      | _ => exact .inl (as_before rfl waits)
  | schedule name delay outcome =>
    simp only [perform] at waits
    split at waits
    · exact .inl (as_before rfl waits)
    · rename_i repositories clones scheduled
      obtain ⟨idle, -, jobs⟩ := CloneQueue.schedule_spec scheduled
      rcases jobs job waits with held | rfl
      · exact .inl (as_before rfl held)
      · exact .inr ⟨idle, .schedule name delay outcome⟩
  | tick =>
    have waiting := (environment.world.clones.tick_spec sound.distinct).2.2
    have counted : job ∈ (environment.world.clones.tick environment.world.store.repositories).waiting := waits
    rw [waiting] at counted
    obtain ⟨before, kept, rfl⟩ := List.mem_map.mp counted
    obtain ⟨held, waits_on⟩ := List.mem_filter.mp kept
    refine .inl ⟨before, held, rfl, rfl, ?_⟩
    simp only [bne_iff_ne] at waits_on
    simp only [CloneJob.waited, Operation.isTick, if_true]
    omega
  | add name url =>
    simp only [perform] at waits
    split at waits <;> exact .inl (as_before rfl waits)
  | remove name =>
    simp only [perform] at waits
    split at waits <;> exact .inl (as_before rfl waits)
  | configure config => exact .inl (as_before rfl waits)

theorem no_command_passes_at_once (operations : List Operation) (first : Nat) :
    Operation.passed operations first (first + 1) = 0 := by
  have nothing : (operations.take (first + 1)).drop (first + 1) = [] :=
    List.drop_eq_nil_of_le (List.length_take_le _ _)
  rw [Operation.passed, nothing, List.countP_nil]

/-- The job that waits under a name since an operation is the one that this has asked for, under the settings
that were in force then, with as many commands less to wait as have passed. -/
theorem job_counts_from_its_schedule (sound : environment.world.Sound) (within : now ≤ operations.length)
    (since : Since (environment.Awaits operations name) first now) :
    ∃ job ∈ (environment.stage operations now).world.clones.jobs, job.repository = name ∧
      ∃ operation, operations[first]? = some operation ∧
        operation.Schedules (environment.stage operations first).config
          ⟨name, job.remaining + Operation.passed operations first now, job.outcome⟩ := by
  induction now with
  | zero => exact absurd since.earlier (Nat.not_lt_zero first)
  | succ now ih =>
    obtain ⟨job, waits, named⟩ := CloneQueue.pending_iff.mp (since.lasting (now + 1) (Nat.le_refl _) since.earlier)
    obtain ⟨operation, here⟩ : ∃ operation, operations[now]? = some operation :=
      ⟨_, List.getElem?_eq_getElem within⟩
    have sound_now := stage_is_sound sound operations now
    refine ⟨job, waits, named, ?_⟩
    rw [stage_succ here] at waits
    rcases job_waited_or_is_new sound_now operation waits with
      ⟨before, held, same, outcome, count⟩ | ⟨idle, asked⟩
    · have awaited : environment.Awaits operations name now :=
        CloneQueue.pending_iff.mpr ⟨before, held, same.trans named⟩
      have later : first < now := by
        refine Nat.lt_of_le_of_ne (Nat.le_of_lt_succ since.earlier) ?_
        rintro rfl
        exact since.fresh awaited
      obtain ⟨job', held', named', origin⟩ := ih (Nat.le_of_succ_le within)
        ⟨later, since.fresh, fun time early => since.lasting time (Nat.le_succ_of_le early)⟩
      -- Only one job waits under the name.
      obtain rfl : before = job' :=
        List.inj_on_of_nodup_map sound_now.single held held' ((same.trans named).trans named'.symm)
      rw [passed_succ here later, ← outcome]
      rw [count, Nat.add_assoc, Nat.add_comm (if operation.isTick then 1 else 0)] at origin
      exact origin
    · have now_is_first : first = now := by
        refine Nat.le_antisymm (Nat.le_of_lt_succ since.earlier) (Nat.le_of_not_lt fun later => ?_)
        have awaited := since.lasting now (Nat.le_succ now) later
        rw [named] at idle
        exact absurd awaited (by rw [Awaits, idle]; exact Bool.false_ne_true)
      subst now_is_first
      rw [no_command_passes_at_once, Nat.add_zero]
      exact ⟨operation, here, named ▸ asked⟩

/-- A clone that ends with a passing command has a job of its name that is due, with the outcome of the clone. -/
theorem ends_by_a_due_job (sound : environment.world.Sound)
    (ends : environment.EndsAt operations number name outcome) :
    ⟨name, 0, outcome⟩ ∈ (environment.stage operations number).world.clones.jobs := by
  obtain ⟨r, before, cloning⟩ := Option.map_eq_some_iff.mp ends.cloning
  obtain ⟨s, after, rfl⟩ := Option.map_eq_some_iff.mp ends.ended
  rw [stage_succ ends.passes] at after
  refine CloneQueue.changed_by_a_due_job (stage_is_sound sound operations number).distinct before after ?_
  rw [cloning]
  exact (CloneStatus.isFinal_iff _).mp ends.final

theorem holds_nothing_at_the_start (config : Config) (ids : IdSource) (operations : List Operation)
    (name : String) :
    ¬ (start config ids).Holds operations name 0 :=
  Bool.false_ne_true

theorem awaits_nothing_at_the_start (config : Config) (ids : IdSource) (operations : List Operation)
    (name : String) :
    ¬ (start config ids).Awaits operations name 0 :=
  Bool.false_ne_true

/-- Only a line adds a repository and schedules the end of its clone at once. -/
theorem added_and_scheduled_by_a_line {config : Config} (here : operations[number]? = some operation)
    (asks : operation.Schedules config job)
    (free : ¬ environment.Holds operations name number) (held : environment.Holds operations name (number + 1)) :
    ∃ clock line, operation = .run clock line := by
  cases asks with
  | line clock line => exact ⟨clock, line, rfl⟩
  | schedule other delay outcome =>
    have names : (environment.stage operations (number + 1)).repositories.toList.map Named.name =
        (environment.stage operations number).repositories.toList.map Named.name := by
      rw [stage_succ here, perform]
      split
      · rfl
      · rename_i scheduled
        exact (CloneQueue.schedule_spec scheduled).2.1
    have same := Directory.contains_of_same_names names name
    exact absurd (same.symm.trans held) free

end Environment

/-- Whenever a clone ends with a passing command, one job waits under the name of its repository, and this is
due. It has been scheduled under that name with the outcome of the clone, and as many commands have passed
since as its delay says, which for a line that clones is the one that the settings gave at that time. It has
been scheduled after the repository was added, or by the line that added it, unless a job was waiting under
the name already when the repository was added. -/
theorem clone_ends_as_scheduled_under_its_name (config : Config) (ids : IdSource) (operations : List Operation)
    (number : Nat) (name : String) (outcome : CloneStatus)
    (ends : (Environment.start config ids).EndsAt operations number name outcome) :
    let begun := Environment.start config ids
    (∃ added, Since (begun.Holds operations name) added number) ∧
      (∃ scheduled, Since (begun.Awaits operations name) scheduled number) ∧
      (∀ job, job ∈ (begun.stage operations number).world.clones.jobs ∧ job.repository = name ↔
        job = ⟨name, 0, outcome⟩) ∧
      ∀ added scheduled, Since (begun.Holds operations name) added number →
        Since (begun.Awaits operations name) scheduled number →
        (∃ operation, operations[scheduled]? = some operation ∧
          operation.Schedules (begun.stage operations scheduled).config
            ⟨name, Operation.passed operations scheduled number, outcome⟩) ∧
        (¬ begun.Awaits operations name added → added < scheduled ∨
          added = scheduled ∧ ∃ clock line, operations[scheduled]? = some (.run clock line)) := by
  intro begun
  have sound := Environment.sound_at_the_start config ids
  have due := Environment.ends_by_a_due_job sound ends
  have single := (Environment.stage_is_sound sound operations number).single
  have within : number ≤ operations.length := Nat.le_of_lt (List.getElem?_eq_some_iff.mp ends.passes).1
  obtain ⟨r, held, -⟩ := Option.map_eq_some_iff.mp ends.cloning
  have held_now : begun.Holds operations name number := by
    rw [Environment.Holds, Directory.contains, held]
    rfl
  have awaited_now : begun.Awaits operations name number := CloneQueue.pending_iff.mpr ⟨_, due, rfl⟩
  refine ⟨Since.exists_first (Environment.holds_nothing_at_the_start config ids operations name) held_now,
    Since.exists_first (Environment.awaits_nothing_at_the_start config ids operations name) awaited_now, ?_, ?_⟩
  · intro job
    constructor
    · rintro ⟨waits, named⟩
      exact List.inj_on_of_nodup_map single waits due named
    · rintro rfl
      exact ⟨due, rfl⟩
  · intro added scheduled since_added since_scheduled
    obtain ⟨job, waits, named, operation, here, asked⟩ :=
      Environment.job_counts_from_its_schedule sound within since_scheduled
    obtain rfl : job = ⟨name, 0, outcome⟩ := List.inj_on_of_nodup_map single waits due named
    rw [Nat.zero_add] at asked
    refine ⟨⟨operation, here, asked⟩, fun idle => ?_⟩
    -- A job that was scheduled before the repository was added would have waited when it was.
    have after : added ≤ scheduled := Nat.le_of_not_lt fun before =>
      idle (since_scheduled.lasting added (Nat.le_of_lt since_added.earlier) before)
    rcases Nat.lt_or_eq_of_le after with later | rfl
    · exact .inl later
    · have held_after := since_added.lasting (added + 1) since_added.earlier (Nat.lt_succ_self added)
      obtain ⟨clock, line, rfl⟩ :=
        Environment.added_and_scheduled_by_a_line here asked since_added.fresh held_after
      exact .inr ⟨rfl, clock, line, here⟩

/-- A repository that is added again while the job of the one before it waits has its clone ended by that job. -/
theorem left_over_job_ends_a_later_clone :
    let begun := Environment.start {} (.ofSeed 0)
    let operations : List Operation :=
      [.add "app" "https://host/old.git", .schedule "app" 1 .failed, .remove "app",
      .add "app" "https://host/new.git", .tick, .tick]
    begun.EndsAt operations 5 "app" .failed ∧ Since (begun.Awaits operations "app") 1 5 ∧
      Since (begun.Holds operations "app") 3 5 ∧
      ¬ ∀ number name outcome added scheduled, begun.EndsAt operations number name outcome →
        Since (begun.Holds operations name) added number → Since (begun.Awaits operations name) scheduled number →
        added < scheduled := by
  intro begun operations
  have ends : begun.EndsAt operations 5 "app" .failed :=
    ⟨rfl, by decide +kernel, by decide +kernel, rfl⟩
  have awaited : Since (begun.Awaits operations "app") 1 5 := by decide +kernel
  have held : Since (begun.Holds operations "app") 3 5 := by decide +kernel
  refine ⟨ends, awaited, held, fun always => ?_⟩
  exact absurd (always 5 "app" .failed 3 1 ends held awaited) (by decide)

/-- Once the job that was left over has gone, a repository of its name gets the outcome scheduled for itself:
that of the line that cloned it, after the delay that was set then, although other settings are in force when
it ends. -/
theorem later_clone_ends_as_scheduled_for_it :
    let begun := Environment.start {} (.ofSeed 0)
    let operations : List Operation :=
      [.add "app" "https://host/old.git", .schedule "app" 1 .failed, .remove "app",
      .tick, .tick, .configure { cloneDelay := 2 }, .run "12:00:00" "git clone https://host/app.git",
      .configure { cloneDelay := 7 }, .tick, .tick, .tick]
    begun.EndsAt operations 10 "app" .cloned ∧ Since (begun.Holds operations "app") 6 10 ∧
      Since (begun.Awaits operations "app") 6 10 ∧ ¬ begun.Awaits operations "app" 6 ∧
      ∃ operation, operations[6]? = some operation ∧
        operation.Schedules { cloneDelay := 2 } ⟨"app", 2, .cloned⟩ := by
  intro begun operations
  have ends : begun.EndsAt operations 10 "app" .cloned :=
    ⟨rfl, by decide +kernel, by decide +kernel, rfl⟩
  have held : Since (begun.Holds operations "app") 6 10 := by decide +kernel
  have awaited : Since (begun.Awaits operations "app") 6 10 := by decide +kernel
  have idle : ¬ begun.Awaits operations "app" 6 := by decide +kernel
  have set : (begun.stage operations 6).config = { cloneDelay := 2 } := by decide +kernel
  have origin := (clone_ends_as_scheduled_under_its_name {} (.ofSeed 0) operations 10 "app" .cloned ends).2.2.2
    6 6 held awaited
  rw [set] at origin
  exact ⟨ends, held, awaited, idle, origin.1⟩

end CloudTerminal
