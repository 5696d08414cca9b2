import CloudTerminal.Proofs.LineEffect

/-!
Which command carries out a line, and what a refused line leaves behind. The registry finds the command that
was registered last under a name, so the terminal finds each of its commands by its own name
(`terminal_finds_exactly_its_commands`). `run_has_effect` carries the effects of the commands over to lines,
and `refused_line_leaves_the_world` says that a refusal changes nothing.
-/

namespace CloudTerminal

/-- The command that a name finds is the last one of the list that has it, or else the one found before. -/
theorem lookup_finds_the_last_registered (registry : Registry) (commands : List Command) (name : String) :
    (registry.registerAll commands).lookup name =
      (commands.reverse.find? (·.name == name)).or (registry.lookup name) := by
  induction commands generalizing registry with
  | nil => rfl
  | cons first rest ih =>
    have step : (registry.register first).lookup name =
        ([first].find? (·.name == name)).or (registry.lookup name) := by
      by_cases same : name = first.name
      · rw [same, Registry.lookup_register]
        simp
      · rw [Registry.lookup_register_of_ne registry first same]
        simp [Ne.symm same]
    have later := ih (registry.register first)
    rw [step] at later
    simpa [Registry.registerAll, Option.or_assoc] using later

theorem terminal_names_are_distinct : (Terminal.commands.map (·.name)).Nodup := by decide

/-- The last command of a name is the only one, where no two have the same name. -/
theorem last_of_distinct_commands {commands : List Command} (distinct : (commands.map (·.name)).Nodup)
    (name : String)
    (command : Command) :
    commands.reverse.find? (·.name == name) = some command ↔ command ∈ commands ∧ command.name = name := by
  have reversed : (commands.reverse.map (·.name)).Nodup := by
    rw [List.map_reverse]
    exact (List.reverse_perm _).nodup_iff.mpr distinct
  rw [find_of_distinct_keys (·.name) commands.reverse reversed name command, List.mem_reverse]

/-- The terminal knows the commands of its list, each under its own name, and nothing else. -/
theorem terminal_finds_exactly_its_commands (name : String) (command : Command) :
    Terminal.registry.lookup name = some command ↔
      command ∈ Terminal.commands ∧ command.name = name := by
  have nothing : ({} : Registry).lookup name = none := rfl
  unfold Terminal.registry
  rw [lookup_finds_the_last_registered, nothing, Option.or_none]
  exact last_of_distinct_commands terminal_names_are_distinct name command

namespace Registry

variable {registry : Registry} {word : String} {setting : Setting} {world : World} {arguments : List String}

theorem run_of_unknown (other : word ≠ "help") (unknown : registry.lookup word = none) :
    registry.run setting world ⟨word, arguments⟩ = (.error (.unknownCommand word), world) := by
  have differs : word ≠ helpManual.name := other
  simp only [run, differs, unknown, if_false]

theorem run_of_found {command : Command} (other : word ≠ "help") (found : registry.lookup word = some command) :
    registry.run setting world ⟨word, arguments⟩ = command.run setting world arguments := by
  have differs : word ≠ helpManual.name := other
  simp only [run, differs, found, if_false]

end Registry

/-- The terminal carries out a line by the command that the line names. -/
theorem run_by_the_command (setting : Setting) (world : World) (arguments : List String)
    {command : Command} (member : command ∈ Terminal.commands) :
    Terminal.registry.run setting world ⟨command.name, arguments⟩ =
      command.run setting world arguments := by
  have known : ∀ other ∈ Terminal.commands, other.name ≠ Registry.helpManual.name := by decide
  have found := (terminal_finds_exactly_its_commands command.name command).mpr ⟨member, rfl⟩
  exact Registry.run_of_found (known command member) found

/-- The terminal ends every line in one of the ways of `LineEffect`. -/
theorem run_has_effect (setting : Setting) (world : World) (words : Line) :
    LineEffect setting world words (Terminal.registry.run setting world words) := by
  unfold Registry.run
  split
  · rename_i help
    cases Registry.help Terminal.registry words.arguments with
    | error e => exact .refused e
    | ok reply =>
      refine .look reply ?_
      rw [Line.changes, help]
      rfl
  · split
    · exact .refused _
    · rename_i command found
      obtain ⟨member, named⟩ := (terminal_finds_exactly_its_commands _ command).mp found
      have effect := commands_have_effect command member setting world words.arguments
      rw [named] at effect
      exact effect

/-- Of all that a line can do to the world, nothing is left when it answers with an error. There is one case
for each effect. -/
theorem refusal_leaves_the_world {setting : Setting} {world after : World} {words : Line} {e : Error}
    (effect : LineEffect setting world words (.error e, after)) : after = world := by
  cases effect
  rfl

/-- A clone adds its repository before it schedules the end. Whatever the reason why that is refused, taking
the repository out again gives back the directory as it was. -/
theorem clone_takes_its_repository_out_again {setting : Setting} {world : World} {url name : String}
    {added : Directory Repository} {e : Error}
    (adds : world.store.repositories.add (.begin name url) = .ok added)
    (fails : world.clones.schedule added name setting.config.cloneDelay
      (Repository.cloneOutcome url) = .error e) :
    added.remove name = .ok (.begin name url, world.store.repositories) ∧
      Repository.clone setting world url name = (.error e, world) := by
  have free : world.store.repositories.contains name = false := (Directory.add_eq_ok_iff.mp adds).1
  rw [Directory.add_of_free (Repository.begin name url) free] at adds
  cases adds
  refine ⟨Directory.removing_the_last_added_restores (Repository.begin name url) free, ?_⟩
  cases pending : world.clones.isPending name with
  | true =>
    have refused : e = .pendingClone name := by
      unfold CloneQueue.schedule at fails
      rw [if_pos pending] at fails
      exact (Except.error.inj fails).symm
    rw [clone_restores_when_pending free pending, refused]
  | false =>
    rw [schedule_the_last_added _ free pending] at fails
    cases fails

/-- A refused line changes nothing: neither the store, in any of its directories or their order, nor the
source of identifiers, nor the queue. A clone is refused in this way also after it has added its
repository, and that does happen where a clone is waiting for a repository that the store does not hold. -/
theorem refused_line_leaves_the_world (setting : Setting) (world : World) :
    (∀ words e, (Terminal.registry.run setting world words).1 = .error e →
      (Terminal.registry.run setting world words).2 = world) ∧
    (∀ url name added e, world.store.repositories.add (.begin name url) = .ok added →
      world.clones.schedule added name setting.config.cloneDelay (Repository.cloneOutcome url) =
        .error e →
      added.remove name = .ok (.begin name url, world.store.repositories) ∧
        Repository.clone setting world url name = (.error e, world)) ∧
    ∀ url name? name, Repository.directoryFor url name? = .ok name → Home.isFixed name = false →
      world.store.repositories.contains name = false → world.clones.isPending name = true →
      Terminal.registry.run setting world ⟨"git", "clone" :: url :: name?.toList⟩ =
        (.error (.pendingClone name), world) := by
  refine ⟨?_, ?_, ?_⟩
  · intro words e refused
    have effect := run_has_effect setting world words
    generalize Terminal.registry.run setting world words = outcome at effect refused ⊢
    obtain ⟨result, after⟩ := outcome
    cases refused
    exact refusal_leaves_the_world effect
  · intro url name added e adds fails
    exact clone_takes_its_repository_out_again adds fails
  · intro url name? name named clear free pending
    have member : Repository.git ∈ Terminal.commands := by
      simp [Terminal.commands, Repository.commands]
    have parsed : Repository.manual.oneArgumentOrTwo (url :: name?.toList) = .ok (url, name?) :=
      takes_one_argument_or_two.mpr rfl
    have carried := run_by_the_command setting world ("clone" :: url :: name?.toList) member
    apply carried.trans
    show Repository.runClone setting world (url :: name?.toList) = _
    simp only [Repository.runClone, parsed, named, clear, Bool.false_eq_true, if_false]
    exact clone_restores_when_pending free pending

/-- A world in which a clone of `app` is waiting although there is no such repository. -/
def worldWithOrphanJob : World :=
  { ids := .ofSeed 0, clones := ⟨[{ repository := "app", remaining := 2, outcome := .cloned }]⟩ }

/-- The clone of `app` has been added when the scheduling refuses it, and is taken out again. -/
theorem refused_clone_leaves_the_world_with_orphan_job :
    (Terminal.registry.run ⟨{}, ""⟩ worldWithOrphanJob ⟨"git", ["clone", "https://h/app"]⟩).1 =
        .error (.pendingClone "app") ∧
      (Terminal.registry.run ⟨{}, ""⟩ worldWithOrphanJob ⟨"git", ["clone", "https://h/app"]⟩).2 =
        worldWithOrphanJob := by
  obtain ⟨leaves, restores, refuses⟩ := refused_line_leaves_the_world ⟨{}, ""⟩ worldWithOrphanJob
  have refused := refuses "https://h/app" none "app" rfl (by decide) (by decide) (by decide)
  have result := congrArg Prod.fst refused
  exact ⟨result, leaves _ _ result⟩

end CloudTerminal
