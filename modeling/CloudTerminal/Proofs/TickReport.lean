import Mathlib.Data.List.Nodup
import CloudTerminal.Proofs.DelayedClone

/-!
What a passing command reports. A job that is due ends the clone of its repository when its turn comes and is
reported, or it is dropped for one of three reasons, and then its turn leaves no trace (`turn_of_a_due_job`).
`CloneProgress.Tells` is what every turn keeps: the repositories are those of the start, with just what has
been reported of them. So nothing else has changed after the last turn, however often and in whatever order
the jobs name them (`tick_reports_exactly_what_it_did`).
-/

namespace CloudTerminal

/-- What a report says has become of a repository. -/
def Repository.asReported (report : List (String × CloneStatus)) (r : Repository) : Repository :=
  { r with status := (report.lookup r.name).getD r.status }

/-- Why the turn of a job ends no clone. -/
inductive CloneJob.Dropped (job : CloneJob) (d : Directory Repository) : Prop where
  | missing (absent : d.get? job.repository = none)
  | ended (r : Repository) (found : d.get? job.repository = some r) (final : r.status.isFinal = true)
  | endless (unfit : job.outcome = .cloning)

/-- The repositories are those of the start, with what has been reported of them: at most once of each, and
only that its clone has ended. -/
structure CloneProgress.Tells (start : Directory Repository) (progress : CloneProgress) : Prop where
  once : (progress.resolved.map Prod.fst).Nodup
  ended : ∀ name status, (name, status) ∈ progress.resolved →
    status.isFinal = true ∧ ∃ r ∈ start.toList, r.name = name ∧ r.status = .cloning
  list : progress.repositories.toList = start.toList.map (Repository.asReported progress.resolved)

namespace Repository

variable {r : Repository} {report : List (String × CloneStatus)} {name : String} {status : CloneStatus}

theorem nothing_reported_of (unnamed : name ∉ report.map Prod.fst) : report.lookup name = none := by
  refine List.lookup_eq_none_iff.mpr fun entry member => ?_
  simpa using fun same : name = entry.1 => unnamed (same ▸ List.mem_map_of_mem member)

theorem as_reported_of_unnamed (unnamed : r.name ∉ report.map Prod.fst) : r.asReported report = r := by
  rw [asReported, nothing_reported_of unnamed]
  rfl

theorem as_reported_of_named (once : (report.map Prod.fst).Nodup) (member : (r.name, status) ∈ report) :
    r.asReported report = { r with status } := by
  obtain ⟨before, behind, rfl⟩ := List.append_of_mem member
  rw [List.map_append] at once
  have unnamed : r.name ∉ before.map Prod.fst := fun earlier =>
    (List.nodup_append.mp once).2.2 r.name earlier r.name List.mem_cons_self rfl
  rw [asReported, List.lookup_append, nothing_reported_of unnamed, List.lookup_cons_self]
  rfl

/-- One more report changes the repository that it names. -/
theorem as_reported_with_one_more (fresh : name ∉ report.map Prod.fst) :
    r.asReported (report ++ [(name, status)]) =
      if r.name = name then { r with status } else r.asReported report := by
  unfold asReported
  rw [List.lookup_append]
  split
  · rename_i here
    rw [here, nothing_reported_of fresh, List.lookup_cons_self]
    rfl
  · rename_i elsewhere
    have nothing : List.lookup r.name [(name, status)] = none := nothing_reported_of (by simpa using elsewhere)
    rw [nothing, Option.or_none]

end Repository

namespace CloneQueue

variable {d start : Directory Repository} {job : CloneJob} {progress : CloneProgress}

/-- A job that is due is reported when its turn comes, or it is dropped. -/
theorem turn_of_a_due_job (due : job.remaining = 0) (progress : CloneProgress) :
    (∃ r, progress.repositories.get? job.repository = some r ∧ r.status = .cloning ∧ job.outcome.isFinal = true ∧
        (advance progress job).resolved = progress.resolved ++ [(job.repository, job.outcome)]) ∨
      job.Dropped progress.repositories ∧ advance progress job = progress := by
  rw [advance, if_pos due, settle_is_find_and_put, Directory.find]
  cases found : progress.repositories.get? job.repository with
  | none => exact .inr ⟨.missing found, rfl⟩
  | some r =>
    rcases resolve_spec job.outcome r with ⟨cloning, final, resolved⟩ | ⟨unfit, e, refused⟩
    · refine .inl ⟨r, rfl, cloning, final, ?_⟩
      simp only [Except.bind, resolved, Except.map]
    · refine .inr ⟨?_, ?_⟩
      · by_cases cloning : r.status = .cloning
        · refine .endless ?_
          by_contra other
          exact unfit ⟨cloning, (CloneStatus.isFinal_iff _).mpr other⟩
        · exact .ended r found ((CloneStatus.isFinal_iff _).mpr cloning)
      · simp only [Except.bind, refused, Except.map]

end CloneQueue

open CloneQueue

namespace CloneProgress.Tells

variable {start : Directory Repository} {progress : CloneProgress} {job : CloneJob} {r : Repository}

theorem at_the_start (start : Directory Repository) : Tells start { repositories := start } where
  once := List.nodup_nil
  ended := by simp
  list := by
    rw [List.map_congr_left fun r _ => Repository.as_reported_of_unnamed List.not_mem_nil]
    exact (List.map_id _).symm

theorem distinct (tells : progress.Tells start) (apart : start.Distinct) : progress.repositories.Distinct := by
  unfold Directory.Distinct at apart ⊢
  rw [tells.list, List.map_map]
  exact apart

/-- A repository that is still cloning has not been reported, and is as it was at the start. -/
theorem still_cloning (tells : progress.Tells start) (held : r ∈ progress.repositories.toList)
    (cloning : r.status = .cloning) : r ∈ start.toList ∧ r.name ∉ progress.resolved.map Prod.fst := by
  rw [tells.list] at held
  obtain ⟨s, member, rfl⟩ := List.mem_map.mp held
  have unnamed : s.name ∉ progress.resolved.map Prod.fst := by
    intro named
    obtain ⟨status, reported⟩ : ∃ status, (s.name, status) ∈ progress.resolved := by simpa using named
    rw [Repository.as_reported_of_named tells.once reported] at cloning
    exact (CloneStatus.isFinal_iff _).mp (tells.ended _ _ reported).1 cloning
  rw [Repository.as_reported_of_unnamed unnamed]
  exact ⟨member, unnamed⟩

/-- The turn of a job that is due keeps the report in step with the repositories: it reports exactly the
change that it makes. -/
theorem turn (tells : progress.Tells start) (apart : start.Distinct) (due : job.remaining = 0) :
    (advance progress job).Tells start := by
  rcases turn_of_a_due_job due progress with ⟨r, found, cloning, final, reported⟩ | ⟨-, same⟩
  · obtain ⟨held, named⟩ := (Directory.lookup_finds_exactly_the_member (tells.distinct apart)).mp found
    obtain ⟨member, fresh⟩ := tells.still_cloning held cloning
    rw [show r.name = job.repository from named] at fresh
    refine ⟨?_, ?_, ?_⟩
    · rw [reported, List.map_append, List.map_singleton, ← List.concat_eq_append]
      exact List.Nodup.concat fresh tells.once
    · intro name status inside
      rw [reported, List.mem_append, List.mem_singleton] at inside
      rcases inside with earlier | last
      · exact tells.ended name status earlier
      · obtain ⟨rfl, rfl⟩ := Prod.mk.inj last
        exact ⟨final, r, member, named, cloning⟩
    · rw [(advance_of_due (tells.distinct apart) due).1, tells.list, List.map_map, reported]
      refine List.map_congr_left fun s there => ?_
      rw [Function.comp_apply, Repository.as_reported_with_one_more fresh]
      split
      · rename_i here
        -- There is only one repository of that name, and it was cloning.
        obtain rfl : s = r := List.inj_on_of_nodup_map apart there member (here.trans named.symm)
        rw [Repository.as_reported_of_unnamed (here ▸ fresh)]
        exact settles_the_cloning here cloning final
      · rename_i elsewhere
        exact settles_nothing_else (.inl elsewhere)
  · rwa [same]

theorem advance (tells : progress.Tells start) (apart : start.Distinct) (job : CloneJob) :
    (advance progress job).Tells start := by
  by_cases due : job.remaining = 0
  · exact tells.turn apart due
  · rw [advance_of_waiting (Nat.pos_of_ne_zero due)]
    exact ⟨tells.once, tells.ended, tells.list⟩

/-- After a passing command the report tells what the jobs have done, by induction on these. -/
theorem of_tick (apart : start.Distinct) (queue : CloneQueue) : (queue.tick start).Tells start :=
  List.foldlRecOn queue.jobs CloneQueue.advance (at_the_start start) fun _ tells job _ => tells.advance apart job

end CloneProgress.Tells

namespace CloneQueue

variable {d : Directory Repository} {earlier later : List CloneJob} {job : CloneJob}

theorem tick_with_one_more (earlier : List CloneJob) (job : CloneJob) :
    (CloneQueue.mk (earlier ++ [job])).tick d = advance ((CloneQueue.mk earlier).tick d) job :=
  List.foldl_append

theorem turn_keeps_the_report (progress : CloneProgress) (job : CloneJob) :
    progress.resolved <+: (advance progress job).resolved := by
  unfold advance
  split
  · split
    · exact List.prefix_append _ _
    · exact List.prefix_rfl
  · exact List.prefix_rfl

/-- What has been reported stays reported. -/
theorem report_of_earlier_jobs (earlier later : List CloneJob) :
    ((CloneQueue.mk earlier).tick d).resolved <+: ((CloneQueue.mk (earlier ++ later)).tick d).resolved := by
  rw [tick, tick, List.foldl_append]
  generalize earlier.foldl advance { repositories := d } = progress
  refine List.foldlRecOn (motive := fun after =>
    progress.resolved <+: after.resolved) later advance List.prefix_rfl ?_
  exact fun after kept job _ => kept.trans (turn_keeps_the_report after job)

end CloneQueue

/-- A passing command reports what it does, whatever waits. It changes nothing but the repositories that it
names, each once, of which it ends the clone as it says, and it leaves the jobs that are not due, each with
one command less to wait. Every job that is due is reported when its turn comes, unless its repository is
missing then or its clone is over, or the job would leave it cloning. -/
theorem tick_reports_exactly_what_it_did (world : World) (distinct : world.store.repositories.Distinct) :
    let report := world.tick.1
    let repositories := world.store.repositories
    (report.map Prod.fst).Nodup ∧
      (∀ r ∈ repositories.toList, (r.asReported report).status ≠ r.status ↔ r.name ∈ report.map Prod.fst) ∧
      (∀ name status, (name, status) ∈ report →
        ∃ r ∈ repositories.toList, r.name = name ∧ r.status = .cloning ∧ r.asReported report = { r with status }) ∧
      world.tick.2 = { world with
        store.repositories := ⟨repositories.toList.map (·.asReported report)⟩
        clones := ⟨(world.clones.jobs.filter (0 < ·.remaining)).map fun job =>
          { job with remaining := job.remaining - 1 }⟩ } ∧
      ∀ earlier job later, world.clones.jobs = earlier ++ job :: later → job.remaining = 0 →
        let turn := (CloneQueue.mk earlier).tick repositories
        let told := ((CloneQueue.mk (earlier ++ [job])).tick repositories).resolved
        told <+: report ∧
          (told = turn.resolved ++ [(job.repository, job.outcome)] ∨
            told = turn.resolved ∧ job.Dropped turn.repositories) := by
  intro report repositories
  have tells : (world.clones.tick repositories).Tells repositories := .of_tick distinct world.clones
  obtain ⟨-, -, waiting⟩ := world.clones.tick_spec distinct
  refine ⟨tells.once, fun r held => ⟨fun changed => ?_, fun named => ?_⟩, fun name status reported => ?_, ?_, ?_⟩
  · by_contra unnamed
    exact changed (congrArg Repository.status (Repository.as_reported_of_unnamed unnamed))
  · obtain ⟨status, reported⟩ : ∃ status, (r.name, status) ∈ report := by simpa using named
    obtain ⟨final, s, there, here, cloning⟩ := tells.ended _ _ reported
    obtain rfl : s = r := List.inj_on_of_nodup_map distinct there held here
    have shown : s.asReported report = { s with status } := Repository.as_reported_of_named tells.once reported
    rw [shown, cloning]
    exact (CloneStatus.isFinal_iff _).mp final
  · obtain ⟨final, r, there, rfl, cloning⟩ := tells.ended _ _ reported
    exact ⟨r, there, rfl, cloning, Repository.as_reported_of_named tells.once reported⟩
  · have wait_on : world.clones.jobs.filter (·.remaining != 0) = world.clones.jobs.filter (0 < ·.remaining) :=
      List.filter_congr fun job _ => by simp [Nat.pos_iff_ne_zero, bne, beq_eq_decide]
    have list : (world.clones.tick repositories).repositories = ⟨repositories.toList.map (·.asReported report)⟩ :=
      congrArg Directory.mk tells.list
    show world.left (world.clones.tick repositories) = _
    rw [World.left, list, waiting, wait_on]
    rfl
  · intro earlier job later list due turn told
    have made : told = (CloneQueue.advance turn job).resolved :=
      congrArg CloneProgress.resolved (CloneQueue.tick_with_one_more earlier job)
    refine ⟨?_, ?_⟩
    · have split : world.clones = ⟨(earlier ++ [job]) ++ later⟩ := by
        rw [List.append_assoc, List.singleton_append, ← list]
      show told <+: (world.clones.tick repositories).resolved
      rw [split]
      exact CloneQueue.report_of_earlier_jobs _ _
    · rcases CloneQueue.turn_of_a_due_job due turn with ⟨_, _, _, _, reported⟩ | ⟨dropped, same⟩
      · exact .inl (made.trans reported)
      · exact .inr ⟨made.trans (congrArg CloneProgress.resolved same), dropped⟩

/-- Of six jobs one waits on and one ends its clone. The others would leave it cloning, come too late, or find
nothing that they could end. -/
theorem one_of_six_jobs_is_reported :
    let repositories : Directory Repository := ⟨[⟨"app", "https://host/app.git", .cloning⟩,
      ⟨"lib", "https://host/lib.git", .cloning⟩, ⟨"old", "https://host/old.git", .cloned⟩]⟩
    let jobs : List CloneJob :=
      [⟨"lib", 2, .cloned⟩, ⟨"app", 0, .cloning⟩, ⟨"app", 0, .failed⟩, ⟨"app", 0, .cloned⟩,
        ⟨"ghost", 0, .cloned⟩, ⟨"old", 0, .failed⟩]
    let world : World := { World.ofSeed 0 with store.repositories := repositories, clones := ⟨jobs⟩ }
    repositories.Distinct ∧ world.tick.1 = [("app", .failed)] ∧
      world.tick.2.clones.jobs = [⟨"lib", 1, .cloned⟩] ∧
      CloneJob.Dropped ⟨"app", 0, .cloned⟩ ((CloneQueue.mk (jobs.take 3)).tick repositories).repositories := by
  intro repositories jobs world
  have distinct : repositories.Distinct := by
    unfold Directory.Distinct
    decide
  have report : world.tick.1 = [("app", .failed)] := by decide +kernel
  obtain ⟨-, -, -, next, turns⟩ := tick_reports_exactly_what_it_did world distinct
  refine ⟨distinct, report, ?_, ?_⟩
  · rw [next]
    rfl
  · rcases (turns (jobs.take 3) ⟨"app", 0, .cloned⟩ (jobs.drop 4) rfl rfl).2 with reported | ⟨-, dropped⟩
    · exact absurd reported (by decide +kernel)
    · exact dropped

end CloudTerminal
