import CloudTerminal.Proofs.Run

/-!
Which lines are logged. Of all commands only `clear` without arguments asks for the log to be cleared
(`only_clear_clears_the_log`), so every line that is neither blank nor `clear` is logged, be it carried out or
refused, with the line as it was typed and the time.
-/

namespace CloudTerminal

/-- Whatever its arguments and the world, the command does not ask for the log to be cleared. -/
def Command.KeepsTheLog (command : Command) : Prop :=
  ∀ setting world arguments, (command.run setting world arguments).1 ≠ .ok .clear

private theorem mapped_to_another {α : Type} {parsed : Except Error α} {answer : α → Reply}
    (other : ∀ a, answer a ≠ .clear) : parsed.map answer ≠ .ok .clear := by
  cases parsed with
  | error e => intro answered; cases answered
  | ok a =>
    intro answered
    exact other a (Except.ok.inj answered)

private theorem home_commands_keep_the_log :
    ∀ command ∈ Home.commands, command.name ≠ "clear" → command.KeepsTheLog := by
  intro command member other setting world arguments
  simp only [Home.commands, List.mem_cons, List.not_mem_nil, or_false] at member
  rcases member with rfl | rfl | rfl | rfl
  · exact absurd rfl other
  · exact mapped_to_another fun _ => by simp
  · simp only [Home.ls, Command.reading]
    repeat' split
    all_goals simp
  · exact mapped_to_another fun _ => by simp

private theorem instance_commands_keep_the_log :
    ∀ command ∈ Instance.commands, command.KeepsTheLog := by
  intro command member setting world arguments
  simp only [Instance.commands, List.mem_cons, List.not_mem_nil, or_false] at member
  rcases member with rfl | rfl | rfl | rfl | rfl | rfl
  · simp only [Instance.create]
    repeat' split
    all_goals simp
  · simp only [Instance.instances, Command.reading, Instance.listing]
    repeat' split
    all_goals simp
  · simp only [Instance.startCommand, Instance.changing]
    repeat' split
    all_goals simp
  · simp only [Instance.stopCommand, Instance.changing]
    repeat' split
    all_goals simp
  · simp only [Instance.describe, Command.reading]
    split
    · simp
    · exact mapped_to_another fun _ => by simp
  · simp only [Instance.delete]
    repeat' split
    all_goals simp

private theorem key_commands_keep_the_log : ∀ command ∈ Key.commands, command.KeepsTheLog := by
  intro command member setting world arguments
  simp only [Key.commands, List.mem_cons, List.not_mem_nil, or_false] at member
  rcases member with rfl | rfl | rfl | rfl | rfl
  · simp only [Key.keygen]
    repeat' split
    all_goals simp
  · simp only [Key.add]
    repeat' split
    all_goals simp
  · refine mapped_to_another fun _ => ?_
    unfold Key.listing
    split <;> simp
  · simp only [Key.remove]
    repeat' split
    all_goals simp
  · simp only [Key.login, Command.reading]
    repeat' split
    all_goals simp

private theorem host_commands_keep_the_log : ∀ command ∈ Host.commands, command.KeepsTheLog := by
  intro command member setting world arguments
  simp only [Host.commands, List.mem_cons, List.not_mem_nil, or_false] at member
  rcases member with rfl | rfl | rfl | rfl | rfl
  · simp only [Host.ping, Command.reading]
    repeat' split
    all_goals simp
  · exact mapped_to_another fun _ => by simp
  · exact mapped_to_another fun _ => by simp
  · simp only [Host.curl, Command.reading]
    split
    · simp
    · exact mapped_to_another fun _ => by simp
  · simp only [Host.wget, Command.reading]
    split
    · simp
    · exact mapped_to_another fun _ => by simp

private theorem git_keeps_the_log : Repository.git.KeepsTheLog := by
  intro setting world arguments
  simp only [Repository.git]
  split
  · simp
  · simp only [Repository.runClone, Repository.clone]
    repeat' split
    all_goals simp
  · refine mapped_to_another fun _ => ?_
    unfold Repository.listing
    split <;> simp
  · simp only [Repository.viewStatus]
    split
    · simp
    · exact mapped_to_another fun _ => by simp
  · simp

/-- No command but the one for it ever asks for the log to be cleared, whatever its arguments are. -/
theorem other_commands_keep_the_log :
    ∀ command ∈ Terminal.commands, command.name ≠ "clear" → command.KeepsTheLog := by
  intro command member other
  simp only [Terminal.commands, List.mem_append] at member
  rcases member with (((home | cloud) | keys) | host) | git
  · exact home_commands_keep_the_log command home other
  · exact instance_commands_keep_the_log command cloud
  · exact key_commands_keep_the_log command keys
  · exact host_commands_keep_the_log command host
  · obtain rfl := List.mem_singleton.mp git
    exact git_keeps_the_log

private theorem help_keeps_the_log (registry : Registry) (arguments : List String) :
    registry.help arguments ≠ .ok .clear := by
  simp only [Registry.help]
  repeat' split
  all_goals simp

def Line.clear : Line := ⟨"clear", []⟩

/-- The log is asked to be cleared by that one word alone, without arguments. -/
theorem only_clear_clears_the_log (setting : Setting) (world : World) (words : Line) :
    (Terminal.registry.run setting world words).1 = .ok .clear ↔ words = .clear := by
  constructor
  · intro clears
    obtain ⟨word, arguments⟩ := words
    have known : word = "clear" := by
      unfold Registry.run at clears
      split at clears
      · exact absurd clears (help_keeps_the_log _ _)
      · split at clears
        · cases clears
        · rename_i command found
          obtain ⟨member, named⟩ := (terminal_finds_exactly_its_commands _ command).mp found
          by_cases same : command.name = "clear"
          · exact named.symm.trans same
          · exact absurd clears (other_commands_keep_the_log command member same _ _ _)
    subst known
    have member : Home.clear ∈ Terminal.commands := by simp [Terminal.commands, Home.commands]
    have carried := run_by_the_command setting world arguments member
    cases arguments with
    | nil => rfl
    | cons first rest =>
      have refused : (Home.clear.run setting world (first :: rest)).1 ≠ .ok .clear := by
        intro answered
        cases answered
      exact absurd ((congrArg Prod.fst carried).symm.trans clears) refused
  · rintro rfl
    have member : Home.clear ∈ Terminal.commands := by simp [Terminal.commands, Home.commands]
    exact congrArg Prod.fst (run_by_the_command setting world [] member)

namespace Session

variable {session : Session} {line : String} {words : Line}

private theorem shown_unless_clear (result : Except Error Reply) :
    shown? result = none ↔ result = .ok .clear := by
  unfold shown?
  split <;> simp_all

theorem clear_empties_the_log (terminal : session.registry = Terminal.registry) (clock : String)
    (parsed : Line.parse line = some .clear) :
    (session.execute clock line).1 = none ∧ (session.execute clock line).2.log = .empty := by
  have clears := (only_clear_clears_the_log ⟨session.config, clock⟩ session.found .clear).mpr rfl
  have hidden := (shown_unless_clear _).mpr clears
  simp only [execute, parsed, terminal]
  simp only [found] at hidden
  rw [hidden]
  exact ⟨rfl, rfl⟩

/-- Every other line that is not blank is logged as it was typed, with what it shows and the time. -/
theorem other_line_is_logged (terminal : session.registry = Terminal.registry) (clock : String)
    (parsed : Line.parse line = some words) (other : words ≠ .clear) :
    ∃ output, (session.execute clock line).1 = some ⟨line, output, clock⟩ ∧
      (session.execute clock line).2.log = session.log.append ⟨line, output, clock⟩ := by
  have keeps : (Terminal.registry.run ⟨session.config, clock⟩ session.found words).1 ≠ .ok .clear :=
    fun clears => other ((only_clear_clears_the_log _ _ _).mp clears)
  obtain ⟨output, shows⟩ := Option.ne_none_iff_exists'.mp (mt (shown_unless_clear _).mp keeps)
  refine ⟨output, ?_⟩
  simp only [execute, parsed, terminal]
  simp only [found] at shows
  rw [shows]
  exact ⟨rfl, rfl⟩

theorem entry_unless_blank_or_clear (terminal : session.registry = Terminal.registry)
    (clock line : String) :
    (session.execute clock line).1 = none ↔
      Line.parse line = none ∨ Line.parse line = some .clear := by
  cases parsed : Line.parse line with
  | none => simp [execute, parsed]
  | some words =>
    by_cases clear : words = .clear
    · subst clear
      simp [clear_empties_the_log terminal clock parsed]
    · obtain ⟨output, logged, _⟩ := other_line_is_logged terminal clock parsed clear
      simp [logged, clear]

end Session

end CloudTerminal
