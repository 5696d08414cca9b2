import CloudTerminal.Proofs.Run

/-!
The queue of clones beside the repositories that they are for. A command that passes takes one from the count of
every job, and gives the jobs that have none left their turn; what a turn does to the repositories is
`settles`, entry by entry. `LockStep` is the invariant of a session: the jobs are, in order, those of the
repositories still cloning, and their counts grow strictly along the queue. So one passing command resolves at
most one clone, and no job is ever dropped (`clones_stay_in_lock_step`).
-/

namespace CloudTerminal

/-- What the turn of a job makes of a repository. -/
def CloneJob.settles (job : CloneJob) (r : Repository) : Repository :=
  if r.name = job.repository ∧ r.status = .cloning ∧ job.outcome.isFinal = true then
    { r with status := job.outcome }
  else r

/-- A job after a command has passed that does not resolve it. -/
def CloneJob.waited (job : CloneJob) : CloneJob := { job with remaining := job.remaining - 1 }

namespace CloneQueue

variable {d : Directory Repository} {job : CloneJob} {r : Repository}

@[simp] theorem settles_keeps_the_name : (job.settles r).name = r.name := by
  unfold CloneJob.settles
  split <;> rfl

/-- The end of a clone concerns only the repository of its name, and only as long as that is cloning. -/
theorem settles_nothing_else (other : r.name ≠ job.repository ∨ r.status ≠ .cloning) :
    job.settles r = r := by
  unfold CloneJob.settles
  rcases other with other | other <;> simp [other]

theorem settles_the_cloning (named : r.name = job.repository) (cloning : r.status = .cloning)
    (final : job.outcome.isFinal = true) : job.settles r = { r with status := job.outcome } := by
  unfold CloneJob.settles
  rw [if_pos ⟨named, cloning, final⟩]

private theorem map_settles_of_absent {repositories : List Repository}
    (absent : ∀ r ∈ repositories, r.name ≠ job.repository) :
    repositories.map job.settles = repositories := by
  have fixed : ∀ r ∈ repositories, job.settles r = id r :=
    fun r member => settles_nothing_else (.inl (absent r member))
  rw [List.map_congr_left fixed, List.map_id]

/-- A repository can be resolved exactly if it is cloning and the outcome is final; else there is an error. -/
theorem resolve_spec (outcome : CloneStatus) (r : Repository) :
    (r.status = .cloning ∧ outcome.isFinal = true ∧
        r.resolve outcome = .ok { r with status := outcome }) ∨
      (¬(r.status = .cloning ∧ outcome.isFinal = true) ∧ ∃ e, r.resolve outcome = .error e) := by
  unfold Repository.resolve
  cases under : r.status.isFinal with
  | true =>
    refine .inr ⟨?_, _, rfl⟩
    rintro ⟨cloning, _⟩
    exact (CloneStatus.isFinal_iff _).mp under cloning
  | false =>
    have cloning : r.status = .cloning := by
      by_cases cloning : r.status = .cloning
      · exact cloning
      · rw [(CloneStatus.isFinal_iff _).mpr cloning] at under
        cases under
    cases final : outcome.isFinal with
    | true => exact .inl ⟨cloning, rfl, rfl⟩
    | false => exact .inr ⟨by simp, _, rfl⟩

/-- Settling a job changes the entries as `settles` says, and fails only if that changes none. -/
theorem settle_spec (distinct : d.Distinct) (job : CloneJob) :
    (∃ after, settle d job.repository job.outcome = .ok after ∧
        after.toList = d.toList.map job.settles) ∨
      ((∃ e, settle d job.repository job.outcome = .error e) ∧
        ∀ r ∈ d.toList, job.settles r = r) := by
  unfold settle
  cases found : d.split? job.repository with
  | none =>
    refine .inr ⟨⟨_, by rw [Directory.update, found]; rfl⟩, ?_⟩
    intro r member
    exact settles_nothing_else (.inl (Directory.split?_eq_none_iff.mp found r member))
  | some cut =>
    obtain ⟨front, r, back⟩ := cut
    obtain ⟨list, named, _⟩ := Directory.split?_eq_some_iff.mp found
    obtain ⟨before, behind⟩ := Directory.others_are_named_otherwise distinct list
    rw [named] at before behind
    rcases resolve_spec job.outcome r with ⟨cloning, final, resolved⟩ | ⟨unfit, e, refused⟩
    · refine .inl ⟨⟨front ++ { r with status := job.outcome } :: back⟩, ?_, ?_⟩
      · simp only [Directory.update, found, resolved, Except.map]
      · rw [list, List.map_append, List.map_cons, map_settles_of_absent before,
          map_settles_of_absent behind, settles_the_cloning named cloning final]
    · refine .inr ⟨⟨e, by simp only [Directory.update, found, refused, Except.map]⟩, ?_⟩
      intro other member
      rw [list, List.mem_append, List.mem_cons] at member
      rcases member with member | rfl | member
      · exact settles_nothing_else (.inl (before other member))
      · unfold CloneJob.settles
        rw [if_neg fun fit => unfit fit.2]
      · exact settles_nothing_else (.inl (behind other member))

theorem distinct_of_settled {after : Directory Repository} (distinct : d.Distinct)
    (list : after.toList = d.toList.map job.settles) : after.Distinct := by
  have names : after.toList.map Named.name = d.toList.map (Named.name (α := Repository)) := by
    rw [list, List.map_map]
    exact List.map_congr_left fun r _ => settles_keeps_the_name
  unfold Directory.Distinct
  rw [names]
  exact distinct

variable {progress : CloneProgress}

theorem advance_of_waiting (waits : 0 < job.remaining) :
    advance progress job = { progress with waiting := progress.waiting ++ [job.waited] } := by
  unfold advance
  rw [if_neg (by omega)]
  rfl

/-- Jobs that all have to wait only wait, whatever is in the store. -/
theorem advance_all_waiting (jobs : List CloneJob) (wait : ∀ job ∈ jobs, 0 < job.remaining) :
    jobs.foldl advance progress =
      { progress with waiting := progress.waiting ++ jobs.map CloneJob.waited } := by
  induction jobs generalizing progress with
  | nil => simp
  | cons first rest ih =>
    rw [List.foldl_cons, advance_of_waiting (wait first List.mem_cons_self),
      ih fun job member => wait job (List.mem_cons_of_mem _ member)]
    simp

theorem settle_keeps_names_and_urls {name : String} {outcome : CloneStatus} {after : Directory Repository}
    (settled : settle d name outcome = .ok after) :
    after.toList.map (fun r => (r.name, r.url)) = d.toList.map fun r => (r.name, r.url) := by
  unfold settle at settled
  cases updated : d.update name fun r => (r.resolve outcome).map ((), ·) with
  | error e =>
    rw [updated] at settled
    cases settled
  | ok given =>
    rw [updated] at settled
    obtain rfl := Except.ok.inj settled
    obtain ⟨front, r, back, changed, found, made, list⟩ := Directory.update_eq_ok_iff.mp updated
    have before := (Directory.split?_eq_some_iff.mp found).1
    rcases resolve_spec outcome r with ⟨_, _, resolved⟩ | ⟨_, e, refused⟩
    · rw [resolved] at made
      obtain rfl := (Prod.mk.inj (Except.ok.inj made)).2
      simp [list, before]
    · rw [refused] at made
      cases made

/-- No turn renames a repository or gives it another URL, whether the job in turn waits, ends or is
dropped. -/
theorem advance_keeps_names_and_urls (progress : CloneProgress) (job : CloneJob) :
    (advance progress job).repositories.toList.map (fun r => (r.name, r.url)) =
      progress.repositories.toList.map fun r => (r.name, r.url) := by
  unfold advance
  split
  · split
    · rename_i after settled
      exact settle_keeps_names_and_urls settled
    · rfl
  · rfl

/-- A command that passes changes no more of the repositories than how far their clones have come. -/
theorem tick_keeps_names_and_urls (world : World) :
    world.tick.2.store.repositories.toList.map (fun r => (r.name, r.url)) =
      world.store.repositories.toList.map fun r => (r.name, r.url) := by
  have all_jobs : ∀ (jobs : List CloneJob) (progress : CloneProgress),
      (jobs.foldl advance progress).repositories.toList.map (fun r => (r.name, r.url)) =
        progress.repositories.toList.map fun r => (r.name, r.url) := by
    intro jobs
    induction jobs with
    | nil => exact fun _ => rfl
    | cons job rest ih =>
      intro progress
      exact (ih (advance progress job)).trans (advance_keeps_names_and_urls progress job)
  exact all_jobs world.clones.jobs { repositories := world.store.repositories }

/-- Whether some job finds, when its turn comes, a store in which its clone cannot end. -/
def Drops (queue : CloneQueue) (d : Directory Repository) : Prop :=
  ∃ front job back e, queue.jobs = front ++ job :: back ∧ job.remaining = 0 ∧
    settle (front.foldl advance { repositories := d }).repositories job.repository job.outcome = .error e

end CloneQueue

open CloneQueue

/-- The queue and the repositories of a session go in step, with every count below the bound. -/
structure LockStep (bound : Nat) (world : World) : Prop where
  distinct : world.store.repositories.Distinct
  matched : world.clones.jobs.map (fun job => (job.repository, job.outcome)) =
    (world.store.repositories.filter (·.status == .cloning)).map fun r =>
      (r.name, Repository.cloneOutcome r.url)
  ordered : world.clones.jobs.Pairwise (·.remaining < ·.remaining)
  bounded : ∀ job ∈ world.clones.jobs, job.remaining < bound

namespace LockStep

variable {bound : Nat} {world next : World} {job : CloneJob}

/-- In lock step, each job waits for a repository that is cloning under its name, and has the outcome that its
URL decides. -/
theorem job_has_a_cloning_repository (lock : LockStep bound world) (member : job ∈ world.clones.jobs) :
    ∃ r ∈ world.store.repositories.toList, r.status = .cloning ∧ r.name = job.repository ∧
      job.outcome = Repository.cloneOutcome r.url := by
  have target : (job.repository, job.outcome) ∈
      world.clones.jobs.map fun job => (job.repository, job.outcome) :=
    List.mem_map_of_mem (f := fun job : CloneJob => (job.repository, job.outcome)) member
  rw [lock.matched] at target
  obtain ⟨r, held, same⟩ := List.mem_map.mp target
  obtain ⟨present, cloning⟩ := List.mem_filter.mp held
  simp only [Prod.mk.injEq] at same
  exact ⟨r, present, by simpa using cloning, same.1, same.2.symm⟩

/-- The jobs wait for the repositories that are cloning, in the same order. -/
theorem jobs_name_the_cloning (lock : LockStep bound world) :
    world.clones.jobs.map (·.repository) =
      (world.store.repositories.filter (·.status == .cloning)).map (·.name) := by
  simpa [Function.comp_def] using congrArg (List.map Prod.fst) lock.matched

theorem jobs_have_distinct_names (lock : LockStep bound world) :
    (world.clones.jobs.map (·.repository)).Nodup := by
  rw [lock.jobs_name_the_cloning]
  exact lock.distinct.sublist (List.filter_sublist.map Repository.name)

/-- No job meets a repository that is missing or over. -/
theorem settle_succeeds (lock : LockStep bound world) (member : job ∈ world.clones.jobs) :
    ∃ after, settle world.store.repositories job.repository job.outcome = .ok after ∧
      after.toList = world.store.repositories.toList.map job.settles := by
  rcases settle_spec lock.distinct job with settled | ⟨_, unchanged⟩
  · exact settled
  · obtain ⟨r, present, cloning, named, outcome⟩ := lock.job_has_a_cloning_repository member
    have final : job.outcome.isFinal = true := by rw [outcome]; exact clone_outcome_is_final r.url
    have same := unchanged r present
    rw [settles_the_cloning named cloning final] at same
    have status : job.outcome = r.status := congrArg Repository.status same
    rw [status, cloning] at final
    cases final

/-- In lock step the branch that drops a job is never taken, since every repository that a job names is there
and is cloning. -/
theorem drops_nothing (lock : LockStep bound world) :
    ¬ world.clones.Drops world.store.repositories := by
  rintro ⟨front, job, back, e, list, due, failed⟩
  cases front with
  | nil =>
    have member : job ∈ world.clones.jobs := by rw [list]; exact List.mem_cons_self
    obtain ⟨after, settled, _⟩ := lock.settle_succeeds member
    rw [List.foldl_nil, settled] at failed
    cases failed
  | cons first front =>
    have ordered := lock.ordered
    rw [list] at ordered
    have before := (List.pairwise_append.mp ordered).2.2 first List.mem_cons_self job List.mem_cons_self
    omega

/-- At most the first job is due. -/
theorem none_or_the_first_is_due (lock : LockStep bound world) :
    (∀ job ∈ world.clones.jobs, 0 < job.remaining) ∨
      ∃ first rest, world.clones.jobs = first :: rest ∧ first.remaining = 0 ∧
        ∀ job ∈ rest, 0 < job.remaining := by
  cases list : world.clones.jobs with
  | nil => exact .inl (by simp)
  | cons first rest =>
    have ordered := lock.ordered
    rw [list] at ordered
    have later := (List.pairwise_cons.mp ordered).1
    -- The counts grow along the queue, so a job that is due can only be the first one.
    by_cases due : first.remaining = 0
    · exact .inr ⟨first, rest, rfl, due, fun job member => by have := later job member; omega⟩
    · refine .inl ?_
      intro job member
      rcases List.mem_cons.mp member with rfl | member
      · omega
      · have := later job member
        omega

theorem tick_of_all_waiting (wait : ∀ job ∈ world.clones.jobs, 0 < job.remaining) :
    world.tick = ([], { world with clones := ⟨world.clones.jobs.map CloneJob.waited⟩ }) := by
  simp [World.tick, CloneQueue.tick, advance_all_waiting world.clones.jobs wait]

/-- With the first job due and all others waiting, a passing command ends that one clone, counts down the
others and reports the one. -/
theorem tick_of_first_due {first : CloneJob} {rest : List CloneJob} (lock : LockStep bound world)
    (list : world.clones.jobs = first :: rest) (due : first.remaining = 0)
    (wait : ∀ job ∈ rest, 0 < job.remaining) :
    world.tick.1 = [(first.repository, first.outcome)] ∧
      world.tick.2.clones.jobs = rest.map CloneJob.waited ∧
      world.tick.2.store.repositories.toList =
        world.store.repositories.toList.map first.settles := by
  have member : first ∈ world.clones.jobs := by rw [list]; exact List.mem_cons_self
  obtain ⟨after, settled, entries⟩ := lock.settle_succeeds member
  have turn : advance { repositories := world.store.repositories } first =
      { resolved := [(first.repository, first.outcome)], repositories := after } := by
    unfold advance
    rw [if_pos due, settled]
    rfl
  have ran : world.clones.tick world.store.repositories =
      { resolved := [(first.repository, first.outcome)], repositories := after,
        waiting := rest.map CloneJob.waited } := by
    unfold CloneQueue.tick
    rw [list, List.foldl_cons, turn, advance_all_waiting rest wait]
    rfl
  unfold World.tick
  rw [ran]
  exact ⟨rfl, rfl, entries⟩

/-- No two clones end with the same command, since the delays of the jobs increase strictly. -/
theorem resolves_at_most_one (lock : LockStep bound world) : world.tick.1.length ≤ 1 := by
  rcases lock.none_or_the_first_is_due with wait | ⟨first, rest, list, due, wait⟩
  · rw [tick_of_all_waiting wait]
    exact Nat.zero_le 1
  · rw [(lock.tick_of_first_due list due wait).1]
    exact Nat.le_refl 1

private theorem waited_in_order {jobs : List CloneJob} (ordered : jobs.Pairwise (·.remaining < ·.remaining))
    (wait : ∀ job ∈ jobs, 0 < job.remaining) :
    (jobs.map CloneJob.waited).Pairwise (·.remaining < ·.remaining) := by
  rw [List.pairwise_map]
  apply ordered.imp_of_mem
  intro earlier later before behind less
  have positive := wait earlier before
  simp only [CloneJob.waited]
  omega

private theorem waited_below {jobs : List CloneJob} (below : ∀ job ∈ jobs, job.remaining < bound + 1)
    (wait : ∀ job ∈ jobs, 0 < job.remaining) :
    ∀ job ∈ jobs.map CloneJob.waited, job.remaining < bound := by
  intro job member
  obtain ⟨before, present, rfl⟩ := List.mem_map.mp member
  have positive := wait before present
  have limit := below before present
  simp only [CloneJob.waited]
  omega

/-- The turn of a job takes its repository out of those still cloning, and no other one. -/
private theorem cloning_after_settling (final : job.outcome.isFinal = true) (entries : List Repository) :
    (entries.map job.settles).filter (·.status == .cloning) =
      (entries.filter (·.status == .cloning)).filter (·.name != job.repository) := by
  have ended : job.outcome ≠ .cloning := (CloneStatus.isFinal_iff _).mp final
  induction entries with
  | nil => rfl
  | cons r rest ih =>
    by_cases cloning : r.status = .cloning
    · by_cases named : r.name = job.repository
      · rw [List.map_cons, settles_the_cloning named cloning final]
        simpa [cloning, named, ended] using ih
      · rw [List.map_cons, settles_nothing_else (.inl named)]
        simpa [cloning, named] using ih
    · rw [List.map_cons, settles_nothing_else (.inr cloning)]
      simpa [cloning] using ih

private theorem matched_after_the_first {first : CloneJob} {rest : List CloneJob}
    (lock : LockStep bound world) (list : world.clones.jobs = first :: rest) :
    (rest.map CloneJob.waited).map (fun job => (job.repository, job.outcome)) =
      ((world.store.repositories.toList.map first.settles).filter (·.status == .cloning)).map fun r =>
        (r.name, Repository.cloneOutcome r.url) := by
  have member : first ∈ world.clones.jobs := by rw [list]; exact List.mem_cons_self
  obtain ⟨_, _, _, _, outcome⟩ := lock.job_has_a_cloning_repository member
  have final : first.outcome.isFinal = true := by rw [outcome]; exact clone_outcome_is_final _
  have names := lock.jobs_have_distinct_names
  have named := lock.jobs_name_the_cloning
  have matched := lock.matched
  rw [cloning_after_settling final]
  rw [list] at names named matched
  unfold Directory.filter at named matched
  -- The first job is that of the first repository still cloning, which its turn takes out.
  cases held : world.store.repositories.toList.filter (·.status == .cloning) with
  | nil => rw [held] at matched; cases matched
  | cons r others =>
    rw [held] at matched named
    simp only [List.map_cons, List.cons.injEq, Prod.mk.injEq] at matched named
    obtain ⟨⟨same, _⟩, matched⟩ := matched
    have fresh : first.repository ∉ others.map (·.name) := by
      rw [← named.2]
      exact (List.nodup_cons.mp names).1
    have kept : others.filter (·.name != first.repository) = others := by
      apply List.filter_eq_self.mpr
      intro other present
      simp only [bne_iff_ne, ne_eq]
      intro clash
      exact fresh (clash ▸ List.mem_map_of_mem present)
    rw [List.filter_cons_of_neg (by simp [same]), kept, List.map_map]
    exact matched

/-- A command that passes keeps the step and takes one from the bound. -/
theorem tick (lock : LockStep (bound + 1) world) : LockStep bound world.tick.2 := by
  rcases lock.none_or_the_first_is_due with wait | ⟨first, rest, list, due, wait⟩
  · rw [tick_of_all_waiting wait]
    refine ⟨lock.distinct, ?_, waited_in_order lock.ordered wait, waited_below lock.bounded wait⟩
    simpa [CloneJob.waited, Function.comp_def] using lock.matched
  · obtain ⟨_, jobs, entries⟩ := lock.tick_of_first_due list due wait
    have ordered := lock.ordered
    have bounded := lock.bounded
    rw [list] at ordered bounded
    refine ⟨distinct_of_settled lock.distinct entries, ?_, ?_, ?_⟩
    · rw [jobs, Directory.filter, entries]
      exact lock.matched_after_the_first list
    · rw [jobs]
      exact waited_in_order (List.pairwise_cons.mp ordered).2 wait
    · rw [jobs]
      exact waited_below (fun job later => bounded job (List.mem_cons_of_mem _ later)) wait

end LockStep

/-- A line leaves the repositories and the queue, or begins one clone of a free name. -/
theorem line_begins_at_most_one_clone {setting : Setting} {world next : World} {words : Line}
    {result : Except Error Reply} (effect : LineEffect setting world words (result, next)) :
    (next.store.repositories = world.store.repositories ∧ next.clones = world.clones) ∨
      ∃ url name, world.store.repositories.contains name = false ∧
        next.store.repositories.toList = world.store.repositories.toList ++
          [Repository.cloneOf setting.config.cloneDelay url name] ∧
        next.clones.jobs =
          world.clones.jobs ++ CloneJob.ofClone setting.config.cloneDelay url name := by
  cases effect with
  | clone url name name? said named clear free idle => exact .inr ⟨url, name, free, rfl, rfl⟩
  | _ => exact .inl ⟨rfl, rfl⟩

namespace LockStep

variable {bound : Nat} {world next : World}

private theorem add_a_clone {delay : Nat} {url name : String} (lock : LockStep delay world)
    (free : world.store.repositories.contains name = false)
    (entries : next.store.repositories.toList =
      world.store.repositories.toList ++ [Repository.cloneOf delay url name])
    (jobs : next.clones.jobs = world.clones.jobs ++ CloneJob.ofClone delay url name) :
    LockStep (delay + 1) next := by
  have added : world.store.repositories.add (Repository.cloneOf delay url name) =
      .ok next.store.repositories := Directory.add_eq_ok_iff.mpr ⟨free, entries⟩
  have distinct := Directory.distinct_add lock.distinct added
  have matched := lock.matched
  unfold Directory.filter at matched
  by_cases immediate : delay = 0
  · have same : next.clones.jobs = world.clones.jobs := by simp [jobs, CloneJob.ofClone, immediate]
    refine ⟨distinct, ?_, by rw [same]; exact lock.ordered, ?_⟩
    · rw [same, matched, Directory.filter, entries, List.filter_append]
      simp [Repository.cloneOf, immediate, clone_outcome_is_not_cloning]
    · rw [same]
      intro job member
      have below := lock.bounded job member
      omega
  · rw [CloneJob.ofClone, if_neg immediate] at jobs
    refine ⟨distinct, ?_, ?_, ?_⟩
    · rw [jobs, List.map_append, matched, Directory.filter, entries, List.filter_append]
      simp [Repository.cloneOf, immediate]
    · rw [jobs, List.pairwise_append]
      refine ⟨lock.ordered, List.pairwise_singleton _ _, ?_⟩
      intro job member last same
      obtain rfl := List.mem_singleton.mp same
      exact lock.bounded job member
    · rw [jobs]
      intro job member
      rcases List.mem_append.mp member with member | member
      · have below := lock.bounded job member
        omega
      · obtain rfl := List.mem_singleton.mp member
        exact Nat.lt_succ_self delay

/-- A line, carried out after the command has passed, keeps the step. -/
theorem line {setting : Setting} {words : Line} {result : Except Error Reply}
    (lock : LockStep (setting.config.cloneDelay + 1) world)
    (effect : LineEffect setting world.tick.2 words (result, next)) :
    LockStep (setting.config.cloneDelay + 1) next := by
  have ticked := lock.tick
  rcases line_begins_at_most_one_clone effect with ⟨entries, jobs⟩ | ⟨url, name, free, entries, jobs⟩
  · refine ⟨by rw [entries]; exact ticked.distinct, by rw [entries, jobs]; exact ticked.matched,
      by rw [jobs]; exact ticked.ordered, ?_⟩
    rw [jobs]
    intro job member
    exact Nat.lt_succ_of_lt (ticked.bounded job member)
  · exact ticked.add_a_clone free entries jobs

/-- A session is in lock step after every run, by induction on its inputs. -/
theorem of_run (config : Config) (entropy : Random.Source) (inputs : List Input) :
    LockStep (config.cloneDelay + 1) ((Session.start config entropy).after inputs).world := by
  have empty : LockStep (config.cloneDelay + 1) (Session.start config entropy).world :=
    ⟨List.nodup_nil, rfl, List.Pairwise.nil, by simp [Session.start]⟩
  exact (Session.start config entropy).run_keeps inputs
    (P := fun _ world => LockStep (config.cloneDelay + 1) world) rfl empty
    fun past world clock words result next effect lock => lock.line effect

end LockStep

/-- Counts that grow strictly and stay below a bound are at most as many as the bound. -/
theorem length_le_of_increasing {counts : List Nat} {low bound : Nat} (ordered : counts.Pairwise (· < ·))
    (within : ∀ n ∈ counts, low ≤ n ∧ n < bound) : counts.length ≤ bound - low := by
  induction counts generalizing low with
  | nil => exact Nat.zero_le _
  | cons first rest ih =>
    obtain ⟨above, tail⟩ := List.pairwise_cons.mp ordered
    have here := within first List.mem_cons_self
    have later : rest.length ≤ bound - (first + 1) := ih tail fun n member =>
      ⟨above n member, (within n (List.mem_cons_of_mem _ member)).2⟩
    rw [List.length_cons]
    omega

/-- After every run, the queue holds one job for every repository still cloning, in the order in which these
were added, and nothing else. Each job ends its clone as the URL decides. The counts grow strictly and stay
within the delay, so at most one clone more than the delay waits, the next command resolves at most one, and
no job is dropped. -/
theorem clones_stay_in_lock_step (config : Config) (entropy : Random.Source) (inputs : List Input) :
    let world := ((Session.start config entropy).after inputs).world
    world.clones.jobs.map (·.repository) =
        (world.store.repositories.filter (·.status == .cloning)).map (·.name) ∧
      (world.clones.jobs.map (·.repository)).Nodup ∧
      (∀ job ∈ world.clones.jobs, ∃ r, world.store.repositories.get? job.repository = some r ∧
        r.status = .cloning ∧ job.outcome = Repository.cloneOutcome r.url ∧
        job.outcome.isFinal = true) ∧
      (world.clones.jobs.map (·.remaining)).Pairwise (· < ·) ∧
      (∀ job ∈ world.clones.jobs, job.remaining ≤ config.cloneDelay) ∧
      world.clones.size ≤ config.cloneDelay + 1 ∧
      world.tick.1.length ≤ 1 ∧
      ¬ world.clones.Drops world.store.repositories := by
  intro world
  have lock : LockStep (config.cloneDelay + 1) world := .of_run config entropy inputs
  have ordered : (world.clones.jobs.map (·.remaining)).Pairwise (· < ·) :=
    List.pairwise_map.mpr lock.ordered
  refine ⟨lock.jobs_name_the_cloning, lock.jobs_have_distinct_names, ?_, ordered, ?_, ?_,
    lock.resolves_at_most_one, lock.drops_nothing⟩
  · intro job member
    obtain ⟨r, present, cloning, named, outcome⟩ := lock.job_has_a_cloning_repository member
    refine ⟨r, ?_, cloning, outcome, ?_⟩
    · exact (Directory.lookup_finds_exactly_the_member lock.distinct).mpr ⟨present, named⟩
    · rw [outcome]
      exact clone_outcome_is_final r.url
  · intro job member
    exact Nat.le_of_lt_succ (lock.bounded job member)
  · have within : ∀ n ∈ world.clones.jobs.map (·.remaining), 0 ≤ n ∧ n < config.cloneDelay + 1 := by
      intro n member
      obtain ⟨job, present, rfl⟩ := List.mem_map.mp member
      exact ⟨Nat.zero_le _, lock.bounded job present⟩
    simpa [CloneQueue.size] using length_le_of_increasing ordered within

end CloudTerminal
