import CloudTerminal.Proofs.CloneQueue

/-!
When a clone ends. A clone that a line begins is followed through all later lines, whatever these are: it waits
with a count that every command lowers by one (`WaitsAt`), then it is over and stays as it is (`OverAt`).
`clone_is_seen_cloning_for_its_delay` counts the commands from the clone on.
-/

namespace CloudTerminal

open CloneQueue

/-- The clone at a place of the directory is under way, with `left` commands still to pass. -/
structure WaitsAt (place : Nat) (url name : String) (left : Nat) (world : World) : Prop where
  entry : world.store.repositories.toList[place]? = some { name, url, status := .cloning }
  job : { repository := name, remaining := left, outcome := Repository.cloneOutcome url } ∈
    world.clones.jobs

/-- The clone at a place of the directory has ended as its URL decides. -/
def OverAt (place : Nat) (url name : String) (world : World) : Prop :=
  world.store.repositories.toList[place]? =
    some { name, url, status := Repository.cloneOutcome url }

/-- The clone at a place of the directory after `passed` commands that found it. -/
def CloneAt (delay place : Nat) (url name : String) (passed : Nat) (world : World) : Prop :=
  if 0 < delay ∧ passed ≤ delay then WaitsAt place url name (delay - passed) world
  else OverAt place url name world

variable {bound delay place left passed : Nat} {url name : String} {world next : World}

/-- A clone that has to wait is still there at its place after a passing command, with one command less to
wait. -/
theorem waiting_clone_counts_down (lock : LockStep bound world)
    (waits : WaitsAt place url name (left + 1) world) : WaitsAt place url name left world.tick.2 := by
  obtain ⟨entry, held⟩ := waits
  rcases lock.none_or_the_first_is_due with wait | ⟨first, rest, list, due, wait⟩
  · rw [LockStep.tick_of_all_waiting wait]
    exact ⟨entry, List.mem_map.mpr ⟨_, held, rfl⟩⟩
  · obtain ⟨_, jobs, entries⟩ := lock.tick_of_first_due list due wait
    rw [list] at held
    -- The job that is due is another one, and so is its repository.
    have later : { repository := name, remaining := left + 1, outcome := Repository.cloneOutcome url } ∈
        rest := by
      rcases List.mem_cons.mp held with same | later
      · rw [← same] at due
        cases due
      · exact later
    have names := lock.jobs_have_distinct_names
    rw [list] at names
    have fresh : first.repository ∉ rest.map (·.repository) := (List.nodup_cons.mp names).1
    have other : name ≠ first.repository := by
      intro same
      apply fresh
      rw [← same]
      exact List.mem_map.mpr ⟨_, later, rfl⟩
    refine ⟨?_, ?_⟩
    · rw [entries, List.getElem?_map, entry, Option.map_some, settles_nothing_else (.inl other)]
    · rw [jobs]
      exact List.mem_map.mpr ⟨_, later, rfl⟩

/-- A clone at the end of its delay is over after the next passing command. -/
theorem waiting_clone_ends (lock : LockStep bound world) (waits : WaitsAt place url name 0 world) :
    OverAt place url name world.tick.2 := by
  obtain ⟨entry, held⟩ := waits
  rcases lock.none_or_the_first_is_due with wait | ⟨first, rest, list, due, wait⟩
  · exact absurd (wait _ held) (Nat.lt_irrefl 0)
  · obtain ⟨_, _, entries⟩ := lock.tick_of_first_due list due wait
    rw [list] at held
    rcases List.mem_cons.mp held with same | later
    · subst same
      unfold OverAt
      rw [entries, List.getElem?_map, entry, Option.map_some,
        settles_the_cloning rfl rfl (clone_outcome_is_final url)]
    · exact absurd (wait _ later) (Nat.lt_irrefl 0)

theorem ended_clone_stays (lock : LockStep bound world) (ended : OverAt place url name world) :
    OverAt place url name world.tick.2 := by
  rcases lock.none_or_the_first_is_due with wait | ⟨first, rest, list, due, wait⟩
  · rw [LockStep.tick_of_all_waiting wait]
    exact ended
  · obtain ⟨_, _, entries⟩ := lock.tick_of_first_due list due wait
    unfold OverAt at ended ⊢
    rw [entries, List.getElem?_map, ended, Option.map_some,
      settles_nothing_else (.inr (clone_outcome_is_not_cloning url))]

/-- A command that passes takes the clone one command further. -/
theorem clone_at_tick (lock : LockStep bound world) (clone : CloneAt delay place url name passed world) :
    CloneAt delay place url name (passed + 1) world.tick.2 := by
  unfold CloneAt at clone ⊢
  by_cases waiting : 0 < delay ∧ passed ≤ delay
  · rw [if_pos waiting] at clone
    by_cases last : passed = delay
    · rw [last, Nat.sub_self] at clone
      rw [if_neg (by omega)]
      exact waiting_clone_ends lock clone
    · have count : delay - passed = delay - (passed + 1) + 1 := by omega
      rw [count] at clone
      rw [if_pos (by omega)]
      exact waiting_clone_counts_down lock clone
  · rw [if_neg waiting] at clone
    rw [if_neg (by omega)]
    exact ended_clone_stays lock clone

/-- A line changes no clone that is there: it only ever appends one. -/
theorem clone_at_line {setting : Setting} {words : Line} {result : Except Error Reply}
    (effect : LineEffect setting world words (result, next))
    (clone : CloneAt delay place url name passed world) : CloneAt delay place url name passed next := by
  have entry_stays : ∀ r, world.store.repositories.toList[place]? = some r →
      next.store.repositories.toList[place]? = some r := by
    intro r entry
    rcases line_begins_at_most_one_clone effect with ⟨same, _⟩ | ⟨_, _, _, entries, _⟩
    · rw [same, entry]
    · have inside := (List.getElem?_eq_some_iff.mp entry).1
      rw [entries, List.getElem?_append_left inside, entry]
  have job_stays : ∀ job ∈ world.clones.jobs, job ∈ next.clones.jobs := by
    intro job member
    rcases line_begins_at_most_one_clone effect with ⟨_, same⟩ | ⟨_, _, _, _, jobs⟩
    · rw [same]
      exact member
    · rw [jobs]
      exact List.mem_append_left _ member
  unfold CloneAt at clone ⊢
  split at clone
  · rename_i waiting
    rw [if_pos waiting]
    exact ⟨entry_stays _ clone.entry, job_stays _ clone.job⟩
  · rename_i ended
    rw [if_neg ended]
    exact entry_stays _ clone

/-- What a line that clones a repository has done, if it is not refused. -/
theorem line_clones {setting : Setting} {name? : Option String} {reply : Reply}
    (effect : LineEffect setting world ⟨"git", "clone" :: url :: name?.toList⟩ (.ok reply, next)) :
    ∃ name, Repository.directoryFor url name? = .ok name ∧
      world.store.repositories.contains name = false ∧
      next.store.repositories.toList = world.store.repositories.toList ++
        [Repository.cloneOf setting.config.cloneDelay url name] ∧
      next.clones.jobs =
        world.clones.jobs ++ CloneJob.ofClone setting.config.cloneDelay url name := by
  generalize said : (⟨"git", "clone" :: url :: name?.toList⟩ : Line) = words at effect
  cases effect with
  | clone url' name name?' said' named clear free idle =>
    rw [said'] at said
    simp only [Line.mk.injEq, List.cons.injEq, true_and] at said
    obtain ⟨rfl, same⟩ := said
    have given : name? = name?' := by
      cases name? <;> cases name?' <;> simp_all
    subst given
    exact ⟨name, named, free, rfl, rfl⟩
  | look reply quiet =>
    rw [← said] at quiet
    cases quiet
  | power reply name power front back i said' found other =>
    rw [said'] at said
    cases power <;> simp [Power.verb] at said
  | _ => simp_all

/-- The repository of a new clone stands last, and its job, if it has one, has the whole delay before it. -/
theorem fresh_clone_starts {setting : Setting}
    (entries : next.store.repositories.toList = world.store.repositories.toList ++
      [Repository.cloneOf setting.config.cloneDelay url name])
    (jobs : next.clones.jobs =
      world.clones.jobs ++ CloneJob.ofClone setting.config.cloneDelay url name) :
    CloneAt setting.config.cloneDelay world.store.repositories.toList.length url name 0 next := by
  unfold CloneAt
  by_cases immediate : setting.config.cloneDelay = 0
  · rw [if_neg (by omega)]
    unfold OverAt
    rw [entries, List.getElem?_concat_length, Repository.cloneOf, if_pos immediate]
  · rw [if_pos (by omega)]
    refine ⟨?_, ?_⟩
    · rw [entries, List.getElem?_concat_length, Repository.cloneOf, if_neg immediate]
    · rw [jobs, CloneJob.ofClone, if_neg immediate]
      exact List.mem_append_right _ List.mem_cons_self

/-- The repository of a clone that `passed` commands have found. -/
def cloneSeen (delay : Nat) (url name : String) (passed : Nat) : Repository :=
  { name, url, status := if 0 < delay ∧ passed ≤ delay then .cloning else Repository.cloneOutcome url }

/-- A clone that is seen to have ended is seen so ever after. -/
theorem clone_seen_ended_stays (final : (cloneSeen delay url name passed).status.isFinal = true)
    (more : Nat) : cloneSeen delay url name (passed + more) = cloneSeen delay url name passed := by
  unfold cloneSeen at final ⊢
  by_cases waiting : 0 < delay ∧ passed ≤ delay
  · rw [if_pos waiting] at final
    cases final
  · rw [if_neg waiting, if_neg (by omega)]

/-- What a lookup finds of the clone, in a store in which it is known where the clone stands. -/
theorem lookup_of_clone (distinct : world.store.repositories.Distinct)
    (clone : CloneAt delay place url name passed world) :
    world.store.repositories.get? name = some (cloneSeen delay url name passed) := by
  unfold cloneSeen
  refine (Directory.lookup_finds_exactly_the_member distinct).mpr ⟨?_, rfl⟩
  unfold CloneAt at clone
  split at clone
  · rename_i waiting
    rw [if_pos waiting]
    exact List.mem_of_getElem? clone.entry
  · rename_i ended
    rw [if_neg ended]
    exact List.mem_of_getElem? clone

/-- A session that holds a clone takes it further by one command for every line that is not blank. -/
theorem clone_at_run (session : Session) (terminal : session.registry = Terminal.registry)
    (lock : LockStep (session.config.cloneDelay + 1) session.world)
    (clone : CloneAt session.config.cloneDelay place url name passed session.world)
    (inputs : List Input) :
    LockStep (session.config.cloneDelay + 1) (session.after inputs).world ∧
      CloneAt session.config.cloneDelay place url name (passed + inputs.countP Input.isCommand)
        (session.after inputs).world := by
  have kept := session.run_keeps inputs
    (P := fun past world => LockStep (session.config.cloneDelay + 1) world ∧
      CloneAt session.config.cloneDelay place url name (passed + past.length) world)
    terminal ⟨lock, clone⟩ ?_
  · rwa [Session.history_length] at kept
  · intro past world clock words result next effect ⟨lock, clone⟩
    have advanced := clone_at_line effect (clone_at_tick lock clone)
    refine ⟨lock.line effect, ?_⟩
    rwa [List.length_append]

/-- What lookups find of the clone after a run, before and after the next command lets the queue advance. -/
theorem lookups_at_run (session : Session) (terminal : session.registry = Terminal.registry)
    (lock : LockStep (session.config.cloneDelay + 1) session.world)
    (clone : CloneAt session.config.cloneDelay place url name passed session.world)
    (inputs : List Input) :
    (session.after inputs).world.store.repositories.get? name =
        some (cloneSeen session.config.cloneDelay url name (passed + inputs.countP Input.isCommand)) ∧
      (session.after inputs).found.store.repositories.get? name =
        some (cloneSeen session.config.cloneDelay url name
          (passed + inputs.countP Input.isCommand + 1)) := by
  obtain ⟨stepped, later⟩ := clone_at_run session terminal lock clone inputs
  refine ⟨lookup_of_clone stepped.distinct later, ?_⟩
  exact lookup_of_clone stepped.tick.distinct (clone_at_tick stepped later)

/-- A line that clones a repository adds it under a free name. Every later command that finds it finds it
still cloning as long as the delay lasts, and ended as its URL decides from then on, whatever the lines in
between are; without a delay it has ended at once. A clone that has ended never changes again. -/
theorem clone_is_seen_cloning_for_its_delay (config : Config) (entropy : Random.Source) (before : List Input)
    (input : Input) (url : String) (name? : Option String) (reply : Reply)
    (said : ((Session.start config entropy).after before).exchange? input =
      some (⟨"git", "clone" :: url :: name?.toList⟩, .ok reply)) :
    let session := (Session.start config entropy).after before
    let opened := session.take input
    ∃ name, Repository.directoryFor url name? = .ok name ∧
      session.found.store.repositories.contains name = false ∧
      (∀ later, (opened.after later).found.store.repositories.get? name =
        some ⟨name, url, if later.countP Input.isCommand + 1 ≤ config.cloneDelay then .cloning
          else Repository.cloneOutcome url⟩) ∧
      (config.cloneDelay = 0 → opened.world.store.repositories.get? name =
        some ⟨name, url, Repository.cloneOutcome url⟩) ∧
      ∀ later rest r, (opened.after later).world.store.repositories.get? name = some r →
        r.status.isFinal = true →
        ((opened.after later).after rest).world.store.repositories.get? name = some r := by
  intro session opened
  obtain ⟨terminal, configured⟩ := (Session.start config entropy).after_keeps_the_settings before
  obtain ⟨openedTerminal, openedConfig⟩ := session.take_keeps_the_settings input
  have kept : opened.config = config := openedConfig.trans configured
  have effect := session.exchange_has_effect input terminal said
  rw [configured] at effect
  obtain ⟨name, named, free, entries, jobs⟩ := line_clones effect
  have fresh : CloneAt config.cloneDelay _ url name 0 opened.world := fresh_clone_starts entries jobs
  have lock : LockStep (config.cloneDelay + 1) opened.world := by
    have run := LockStep.of_run config entropy (before ++ [input])
    rwa [Session.after_append] at run
  have lookups := lookups_at_run opened (openedTerminal.trans terminal) (by rwa [kept]) (by rwa [kept])
  simp only [kept, Nat.zero_add] at lookups
  refine ⟨name, named, free, ?_, ?_, ?_⟩
  · intro later
    obtain ⟨_, seen⟩ := lookups later
    have counted : 0 < config.cloneDelay ∧ later.countP Input.isCommand + 1 ≤ config.cloneDelay ↔
        later.countP Input.isCommand + 1 ≤ config.cloneDelay := by omega
    simp only [cloneSeen, counted] at seen
    exact seen
  · intro immediate
    have seen := lookup_of_clone lock.distinct fresh
    rwa [cloneSeen, if_neg (by omega)] at seen
  · intro later rest r found final
    obtain ⟨here, _⟩ := lookups later
    rw [found] at here
    cases here
    obtain ⟨there, _⟩ := lookups (later ++ rest)
    rwa [Session.after_append, List.countP_append, clone_seen_ended_stays final] at there

/-- A clone begun while another one waits is still cloning for the command after it, and has ended for the next
one; the blank line between them does not count. -/
theorem clone_begun_beside_another_is_seen_ending :
    let session := (Session.start { cloneDelay := 1 } 0).after [⟨"", "git clone https://h/first"⟩]
    let opened := session.take ⟨"", "git clone https://h/second"⟩
    opened.found.store.repositories.get? "second" = some ⟨"second", "https://h/second", .cloning⟩ ∧
      (opened.after [⟨"", " "⟩, ⟨"", "nonsense"⟩]).found.store.repositories.get? "second" =
        some ⟨"second", "https://h/second", .cloned⟩ := by
  intro session opened
  obtain ⟨name, named, _, seen, _⟩ := clone_is_seen_cloning_for_its_delay { cloneDelay := 1 } 0
    [⟨"", "git clone https://h/first"⟩] ⟨"", "git clone https://h/second"⟩ "https://h/second" none _ rfl
  have called : Repository.directoryFor "https://h/second" none = .ok "second" := rfl
  rw [called] at named
  cases named
  exact ⟨seen [], seen [⟨"", " "⟩, ⟨"", "nonsense"⟩]⟩

end CloudTerminal
