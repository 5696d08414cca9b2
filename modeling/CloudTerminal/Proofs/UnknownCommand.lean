import CloudTerminal.Proofs.Dispatch

/-!
Which lines are answered that a command is unknown. No command of the terminal answers so
(`commands_know_themselves`): it passes on the errors of its parts, and none of these is about a command. So
it is the answer to a line that begins with a name that no command has, or that asks for help about one
(`unknown_command_iff`).
-/

namespace CloudTerminal

/-- The result is not that a command is unknown. -/
def KnowsTheCommand {α : Type} (result : Except Error α) : Prop := ∀ word, result ≠ .error (.unknownCommand word)

section Errors

variable {α β : Type} {result : Except Error α} {manual : Manual} {arguments : List String}

theorem ok_knows (a : α) : KnowsTheCommand (.ok a : Except Error α) := by
  intro word same
  cases same

/-- An error that is passed on. -/
theorem KnowsTheCommand.error_of (known : KnowsTheCommand result) {e : Error} (failed : result = .error e) :
    KnowsTheCommand (.error e : Except Error β) := by
  rintro word ⟨⟩
  exact known word failed

theorem KnowsTheCommand.map (known : KnowsTheCommand result) (f : α → β) : KnowsTheCommand (result.map f) := by
  cases failed : result with
  | error e => exact known.error_of failed
  | ok a => exact ok_knows (f a)

/-- Two steps know the command if both do. With this, the commands are gone through along their
definitions. -/
theorem KnowsTheCommand.bind (known : KnowsTheCommand result) {f : α → Except Error β}
    (later : ∀ a, KnowsTheCommand (f a)) : KnowsTheCommand (result.bind f) := by
  cases failed : result with
  | error e => exact known.error_of failed
  | ok a => exact later a

theorem refusal_knows (low : Nat) :
    KnowsTheCommand (.error (manual.refusal low arguments) : Except Error α) := by
  intro word
  unfold Manual.refusal
  split <;> simp

theorem no_argument_knows : KnowsTheCommand (manual.noArgument arguments) := by
  unfold Manual.noArgument
  split
  · exact ok_knows ()
  · exact refusal_knows 0

theorem one_argument_knows : KnowsTheCommand (manual.oneArgument arguments) := by
  unfold Manual.oneArgument
  split
  · exact ok_knows _
  · exact refusal_knows 1

theorem optional_argument_knows : KnowsTheCommand (manual.optionalArgument arguments) := by
  unfold Manual.optionalArgument
  split
  · exact ok_knows none
  · exact ok_knows _
  · exact refusal_knows 0

theorem two_arguments_know : KnowsTheCommand (manual.twoArguments arguments) := by
  unfold Manual.twoArguments
  split
  · exact ok_knows _
  · exact refusal_knows 2

theorem one_argument_or_two_know : KnowsTheCommand (manual.oneArgumentOrTwo arguments) := by
  unfold Manual.oneArgumentOrTwo
  split
  · exact ok_knows _
  · exact ok_knows _
  · exact refusal_knows 1

theorem fixed_word_knows (word : String) : KnowsTheCommand (manual.afterWord word arguments) := by
  intro other
  unfold Manual.afterWord
  split
  · simp
  · split <;> simp

theorem instance_name_knows : KnowsTheCommand (Instance.nameArgument manual arguments) := by
  unfold Instance.nameArgument
  split
  · rename_i failed
    exact (fixed_word_knows "instance").error_of failed
  · exact one_argument_knows

end Errors

section Entries

variable {α β : Type} [Named α] {d : Directory α}

theorem find_knows (d : Directory α) (name : String) : KnowsTheCommand (d.find name) := by
  intro word
  unfold Directory.find
  split <;> simp

theorem add_knows (d : Directory α) (entry : α) : KnowsTheCommand (d.add entry) := by
  intro word
  unfold Directory.add
  split <;> simp

theorem remove_knows (d : Directory α) (name : String) : KnowsTheCommand (d.remove name) := by
  intro word
  unfold Directory.remove
  split <;> simp

theorem update_knows (d : Directory α) (name : String) {change : α → Except Error (β × α)}
    (known : ∀ entry, KnowsTheCommand (change entry)) : KnowsTheCommand (d.update name change) := by
  unfold Directory.update
  split
  · intro word
    simp
  · split
    · rename_i failed
      exact (known _).error_of failed
    · exact ok_knows _

theorem settle_knows (d : Directory Repository) (name : String) (outcome : CloneStatus) :
    KnowsTheCommand (CloneQueue.settle d name outcome) := by
  have resolves : ∀ r : Repository, KnowsTheCommand (r.resolve outcome) := by
    intro r word
    unfold Repository.resolve
    repeat' split
    all_goals simp
  exact (update_knows d name fun r => (resolves r).map _).map _

theorem schedule_knows (queue : CloneQueue) (d : Directory Repository) (name : String) (delay : Nat)
    (outcome : CloneStatus) : KnowsTheCommand (queue.schedule d name delay outcome) := by
  unfold CloneQueue.schedule
  split
  · intro word
    simp
  · split
    · exact (settle_knows d name outcome).map _
    · exact ok_knows _

end Entries

/-- Whatever its arguments and the world, the command does not answer that a command is unknown. -/
def Command.KnowsItself (command : Command) : Prop :=
  ∀ setting world arguments, KnowsTheCommand (command.run setting world arguments).1

private theorem home_commands_know_themselves : ∀ command ∈ Home.commands, command.KnowsItself := by
  intro command member setting world arguments
  simp only [Home.commands, List.mem_cons, List.not_mem_nil, or_false] at member
  rcases member with rfl | rfl | rfl | rfl
  · exact no_argument_knows.map _
  · exact no_argument_knows.map _
  · simp only [Home.ls, Command.reading]
    split
    · rename_i failed
      exact optional_argument_knows.error_of failed
    · intro word
      split <;> simp
  · exact no_argument_knows.map _

private theorem changing_knows_itself (manual : Manual) {change : Instance → Except Error Instance}
    (known : ∀ i, KnowsTheCommand (change i)) (answer : String → String → String) :
    (Instance.changing manual change answer).KnowsItself := by
  intro setting world arguments
  simp only [Instance.changing]
  split
  · rename_i failed
    exact instance_name_knows.error_of failed
  · rename_i name _
    split
    · rename_i failed
      exact (update_knows _ name fun i => (known i).map _).error_of failed
    · exact ok_knows _

private theorem power_change_knows (power : Power) (i : Instance) : KnowsTheCommand (i.enter power) := by
  intro word
  unfold Instance.enter
  split <;> simp

private theorem instance_commands_know_themselves : ∀ command ∈ Instance.commands, command.KnowsItself := by
  intro command member
  simp only [Instance.commands, List.mem_cons, List.not_mem_nil, or_false] at member
  rcases member with rfl | rfl | rfl | rfl | rfl | rfl
  · intro setting world arguments
    simp only [Instance.create]
    split
    · rename_i failed
      exact ((fixed_word_knows _).bind fun _ => two_arguments_know).error_of failed
    · split
      · intro word
        simp
      · split
        · intro word
          simp
        · split
          · rename_i failed
            exact (add_knows _ _).error_of failed
          · exact ok_knows _
  · intro setting world arguments
    simp only [Instance.instances, Command.reading]
    split
    · rename_i failed
      exact ((fixed_word_knows _).bind fun _ => optional_argument_knows).error_of failed
    · exact ok_knows _
    · intro word
      split <;> simp
  · exact changing_knows_itself _ (power_change_knows .running) _
  · exact changing_knows_itself _ (power_change_knows .stopped) _
  · intro setting world arguments
    simp only [Instance.describe, Command.reading]
    split
    · rename_i failed
      exact instance_name_knows.error_of failed
    · exact (find_knows _ _).map _
  · intro setting world arguments
    simp only [Instance.delete]
    split
    · rename_i failed
      exact instance_name_knows.error_of failed
    · split
      · rename_i failed
        exact (remove_knows _ _).error_of failed
      · exact ok_knows _

private theorem new_key_name_knows (keys : Directory Key) (name? : Option String) :
    KnowsTheCommand (Key.newName keys name?) := by
  intro word
  unfold Key.newName
  split
  · simp
  · split <;> simp

private theorem key_commands_know_themselves : ∀ command ∈ Key.commands, command.KnowsItself := by
  intro command member setting world arguments
  simp only [Key.commands, List.mem_cons, List.not_mem_nil, or_false] at member
  rcases member with rfl | rfl | rfl | rfl | rfl
  · simp only [Key.keygen]
    split
    · rename_i failed
      exact (optional_argument_knows.bind (new_key_name_knows _)).error_of failed
    · split
      · intro word
        simp
      · split
        · rename_i failed
          exact (add_knows _ _).error_of failed
        · exact ok_knows _
  · simp only [Key.add]
    split
    · rename_i failed
      exact one_argument_knows.error_of failed
    · split
      · rename_i failed
        exact (update_knows _ _ fun key : Key => ok_knows key.markAdded).error_of failed
      · exact ok_knows _
  · exact no_argument_knows.map _
  · simp only [Key.remove]
    split
    · rename_i failed
      exact one_argument_knows.error_of failed
    · split
      · rename_i failed
        exact (remove_knows _ _).error_of failed
      · exact ok_knows _
  · simp only [Key.login, Command.reading]
    split
    · rename_i failed
      exact one_argument_knows.error_of failed
    · intro word
      split <;> simp

private theorem page_knows (command url : String) : KnowsTheCommand (Host.Page.fetch command url) := by
  intro word
  unfold Host.Page.fetch
  repeat' split
  all_goals simp

private theorem host_commands_know_themselves : ∀ command ∈ Host.commands, command.KnowsItself := by
  intro command member setting world arguments
  simp only [Host.commands, List.mem_cons, List.not_mem_nil, or_false] at member
  rcases member with rfl | rfl | rfl | rfl | rfl
  · simp only [Host.ping, Command.reading]
    split
    · rename_i failed
      exact one_argument_knows.error_of failed
    · intro word
      split <;> simp
  · exact no_argument_knows.map _
  · exact no_argument_knows.map _
  · simp only [Host.curl, Command.reading]
    split
    · rename_i failed
      exact one_argument_knows.error_of failed
    · exact (page_knows _ _).map _
  · simp only [Host.wget, Command.reading]
    split
    · rename_i failed
      exact one_argument_knows.error_of failed
    · exact (page_knows _ _).map _

private theorem clone_knows (setting : Setting) (world : World) (arguments : List String) :
    KnowsTheCommand (Repository.runClone setting world arguments).1 := by
  have names : ∀ url name?, KnowsTheCommand (Repository.directoryFor url name?) := by
    intro url name? word
    unfold Repository.directoryFor
    repeat' split
    all_goals simp
  simp only [Repository.runClone]
  split
  · rename_i failed
    exact one_argument_or_two_know.error_of failed
  · rename_i url name? _
    split
    · rename_i failed
      exact (names url name?).error_of failed
    · split
      · intro word
        simp
      · simp only [Repository.clone]
        split
        · rename_i failed
          exact (add_knows _ _).error_of failed
        · split
          · exact ok_knows _
          · -- The error is the one of the queue, whether or not the repository can be taken out again.
            rename_i failed
            split <;> exact (schedule_knows _ _ _ _ _).error_of failed

private theorem git_knows_itself : Repository.git.KnowsItself := by
  intro setting world arguments
  simp only [Repository.git]
  split
  · intro word
    simp
  · exact clone_knows setting world _
  · exact no_argument_knows.map _
  · simp only [Repository.viewStatus]
    split
    · rename_i failed
      exact one_argument_knows.error_of failed
    · exact (find_knows _ _).map _
  · intro word
    simp

/-- No command of the terminal answers that a command is unknown. -/
theorem commands_know_themselves : ∀ command ∈ Terminal.commands, command.KnowsItself := by
  intro command member
  simp only [Terminal.commands, List.mem_append] at member
  rcases member with (((home | cloud) | keys) | host) | git
  · exact home_commands_know_themselves command home
  · exact instance_commands_know_themselves command cloud
  · exact key_commands_know_themselves command keys
  · exact host_commands_know_themselves command host
  · obtain rfl := List.mem_singleton.mp git
    exact git_knows_itself

theorem unknown_without_a_command (name : String) :
    Terminal.registry.lookup name = none ↔ ∀ command ∈ Terminal.commands, command.name ≠ name := by
  constructor
  · intro unknown command member named
    have found := (terminal_finds_exactly_its_commands name command).mpr ⟨member, named⟩
    rw [unknown] at found
    cases found
  · intro other
    refine Option.eq_none_iff_forall_ne_some.mpr fun command found => ?_
    obtain ⟨member, named⟩ := (terminal_finds_exactly_its_commands name command).mp found
    exact other command member named

/-- Help says that a word is unknown if it is asked about this word alone, and the word is not its own and not
registered. -/
theorem help_about_an_unknown_command (registry : Registry) (arguments : List String) (word : String) :
    registry.help arguments = .error (.unknownCommand word) ↔
      arguments = [word] ∧ word ≠ "help" ∧ registry.lookup word = none := by
  have known : Registry.helpManual.optionalArgument arguments ≠ .error (.unknownCommand word) :=
    optional_argument_knows word
  unfold Registry.help
  cases parsed : Registry.helpManual.optionalArgument arguments with
  | error e =>
    have other : arguments ≠ [word] := by
      rintro rfl
      cases parsed
    simpa [other, parsed] using known
  | ok argument? =>
    obtain rfl := takes_optional_argument.mp parsed
    cases argument? with
    | none => simp
    | some argument =>
      have help : Registry.helpManual.name = "help" := rfl
      by_cases itself : argument = "help"
      · subst itself
        simp only [help, if_true, reduceCtorEq, false_iff]
        rintro ⟨same, other, _⟩
        cases same
        exact other rfl
      · cases unknown : registry.lookup argument with
        | none =>
          simp only [help, itself, unknown, if_false, Except.error.injEq, Error.unknownCommand.injEq,
            Option.toList_some, List.cons.injEq, and_true]
          constructor
          · rintro rfl
            exact ⟨rfl, itself, unknown⟩
          · exact And.left
        | some command =>
          simp only [help, itself, unknown, if_false, reduceCtorEq, false_iff]
          rintro ⟨same, _, nothing⟩
          cases same
          rw [unknown] at nothing
          cases nothing

/-- A line is answered that a command is unknown exactly if no command has the name that it begins with, or
that it asks for help about. -/
theorem unknown_command_iff (setting : Setting) (world : World) (words : Line) (word : String) :
    (Terminal.registry.run setting world words).1 = .error (.unknownCommand word) ↔
      word ≠ "help" ∧ (∀ command ∈ Terminal.commands, command.name ≠ word) ∧
        (words.command = word ∨ words = ⟨"help", [word]⟩) := by
  obtain ⟨name, arguments⟩ := words
  rw [← unknown_without_a_command]
  by_cases help : name = "help"
  · subst help
    have asked : (Terminal.registry.run setting world ⟨"help", arguments⟩).1 =
        Terminal.registry.help arguments := rfl
    rw [asked, help_about_an_unknown_command]
    constructor
    · rintro ⟨rfl, other, unknown⟩
      exact ⟨other, unknown, .inr rfl⟩
    · rintro ⟨other, unknown, rfl | same⟩
      · exact absurd rfl other
      · cases same
        exact ⟨rfl, other, unknown⟩
  · have no_help : (⟨name, arguments⟩ : Line) ≠ ⟨"help", [word]⟩ := fun same => help (congrArg Line.command same)
    simp only [no_help, or_false]
    cases found : Terminal.registry.lookup name with
    | none =>
      have missed : Terminal.registry.run setting world ⟨name, arguments⟩ =
          (.error (.unknownCommand name), world) := by
        have other : name ≠ Registry.helpManual.name := help
        simp only [Registry.run, other, found, if_false]
      rw [missed]
      constructor
      · rintro ⟨⟩
        exact ⟨help, found, rfl⟩
      · rintro ⟨_, _, rfl⟩
        rfl
    | some command =>
      obtain ⟨member, named⟩ := (terminal_finds_exactly_its_commands name command).mp found
      have carried := run_by_the_command setting world arguments member
      rw [named] at carried
      rw [carried]
      constructor
      · intro answered
        exact absurd answered (commands_know_themselves command member setting world arguments word)
      · rintro ⟨_, unknown, rfl⟩
        rw [found] at unknown
        cases unknown

end CloudTerminal
