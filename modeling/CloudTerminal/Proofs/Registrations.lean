import CloudTerminal.Proofs.UnknownCommand

/-!
What a registry holds after a history of registrations, each of one of the terminal's families of commands, of
all of them, or of a command that may have any name and do anything. Of the commands of one name the last one
counts (`lookup_registered_iff`). The registry keeps its commands in the order of their names, so that it is
decided by what it finds (`Ordered.eq_of_lookup`), and so is its listing. A line is carried out by the command
that is found, and answered that there is none exactly if `help` about it is.
-/

namespace CloudTerminal

/-- What may be registered. -/
inductive Registration where
  /-- All commands of the terminal. -/
  | terminal
  | instances
  | keys
  | hosts
  | repositories
  /-- A command of any name, which may be one of the terminal's. -/
  | custom (command : Command)

namespace Registration

def commands : Registration → List Command
  | terminal => Terminal.commands
  | instances => Instance.commands
  | keys => Key.commands
  | hosts => Host.commands
  | repositories => Repository.commands
  | custom command => [command]

theorem of_the_terminal_or_custom {registration : Registration} {command : Command}
    (member : command ∈ registration.commands) : command ∈ Terminal.commands ∨ registration = custom command := by
  cases registration with
  | custom other => exact .inr (congrArg custom (List.mem_singleton.mp member).symm)
  | terminal => exact .inl member
  | _ =>
    refine .inl ?_
    simp only [commands] at member
    simp only [Terminal.commands, List.mem_append, member, true_or, or_true]

end Registration

/-- All commands that a history registers, one after the other. -/
def registered (history : List Registration) : List Command := history.flatMap Registration.commands

/-- The command has the name, and none behind it has. -/
structure IsLastNamed (commands : List Command) (name : String) (command : Command) : Prop where
  named : command.name = name
  last : ∃ earlier later, commands = earlier ++ command :: later ∧ ∀ other ∈ later, other.name ≠ name

theorem IsLastNamed.mem {commands : List Command} {name : String} {command : Command}
    (isLast : IsLastNamed commands name command) : command ∈ commands := by
  obtain ⟨-, earlier, later, rfl, -⟩ := isLast
  exact List.mem_append_right _ List.mem_cons_self

/-- What a search from the end finds is the last one of the name. -/
theorem find_last_named_iff {commands : List Command} {name : String} {command : Command} :
    commands.reverse.find? (·.name == name) = some command ↔ IsLastNamed commands name command := by
  rw [List.find?_eq_some_iff_append]
  constructor
  · rintro ⟨named, later, earlier, cut, others⟩
    refine ⟨by simpa using named, earlier.reverse, later.reverse, ?_, fun other member => ?_⟩
    · simpa using congrArg List.reverse cut
    · simpa using others other (List.mem_reverse.mp member)
  · rintro ⟨named, earlier, later, rfl, others⟩
    refine ⟨by simpa using named, later.reverse, earlier.reverse, by simp, fun other member => ?_⟩
    simpa using others other (List.mem_reverse.mp member)

namespace Registry

def ofHistory (history : List Registration) : Registry := registerAll {} (registered history)

section Lookup

variable {history : List Registration} {name : String}

theorem lookup_of_history (history : List Registration) (name : String) :
    (ofHistory history).lookup name = (registered history).reverse.find? (·.name == name) := by
  have nothing : ({} : Registry).lookup name = none := rfl
  rw [ofHistory, lookup_finds_the_last_registered, nothing, Option.or_none]

theorem lookup_registered_iff {command : Command} :
    (ofHistory history).lookup name = some command ↔ IsLastNamed (registered history) name command := by
  rw [lookup_of_history, find_last_named_iff]

theorem lookup_misses_iff :
    (ofHistory history).lookup name = none ↔ ∀ command ∈ registered history, command.name ≠ name := by
  simp [lookup_of_history]

end Lookup

/-- The commands are in the order of their names, each name once. -/
def Ordered (registry : Registry) : Prop := registry.commands.Pairwise (·.name < ·.name)

theorem mem_of_place {command other : Command} {commands : List Command}
    (member : other ∈ place command commands) :
    other = command ∨ other ∈ commands := by
  induction commands with
  | nil => exact .inl (List.mem_singleton.mp member)
  | cons first rest ih =>
    unfold place at member
    split at member
    · exact (List.mem_cons.mp member).imp_right (List.mem_cons_of_mem first)
    · split at member
      · exact List.mem_cons.mp member
      · rcases List.mem_cons.mp member with rfl | placed
        · exact .inr List.mem_cons_self
        · exact (ih placed).imp_right (List.mem_cons_of_mem first)

namespace Ordered

/-- A registration keeps the order by names, since it replaces the command of its name or goes before the next
one. -/
theorem register {registry : Registry} (ordered : registry.Ordered) (command : Command) :
    (registry.register command).Ordered := by
  obtain ⟨commands⟩ := registry
  simp only [Ordered, Registry.register] at ordered ⊢
  induction commands with
  | nil => exact List.pairwise_singleton _ command
  | cons first rest ih =>
    obtain ⟨below, others⟩ := List.pairwise_cons.mp ordered
    unfold place
    split
    · rename_i same
      exact List.pairwise_cons.mpr ⟨same ▸ below, others⟩
    · split
      · rename_i less
        refine List.pairwise_cons.mpr ⟨fun other member => ?_, ordered⟩
        rcases List.mem_cons.mp member with rfl | later
        · exact less
        · exact String.lt_trans less (below other later)
      · rename_i differs not_less
        refine List.pairwise_cons.mpr ⟨fun other member => ?_, ih others⟩
        rcases mem_of_place member with rfl | later
        · exact Std.lt_of_le_of_ne (String.not_lt.mp not_less) (Ne.symm differs)
        · exact below other later

theorem registerAll {registry : Registry} (ordered : registry.Ordered) (commands : List Command) :
    (registry.registerAll commands).Ordered := by
  induction commands generalizing registry with
  | nil => exact ordered
  | cons first rest ih => exact ih (ordered.register first)

theorem ofHistory (history : List Registration) : (ofHistory history).Ordered := by
  have start : Ordered {} := List.Pairwise.nil
  exact start.registerAll (registered history)

variable {registry other : Registry}

theorem names_are_distinct (ordered : registry.Ordered) : (registry.commands.map (·.name)).Nodup :=
  List.pairwise_map.mpr (ordered.imp Std.ne_of_lt)

theorem commands_are_distinct (ordered : registry.Ordered) : registry.commands.Nodup :=
  List.Pairwise.of_map (·.name) (fun _ _ differs same => differs (same ▸ rfl)) ordered.names_are_distinct

/-- In an ordered registry a lookup finds just the members, as each name is there only once. -/
theorem lookup_iff (ordered : registry.Ordered) {name : String} {command : Command} :
    registry.lookup name = some command ↔ command ∈ registry.commands ∧ command.name = name :=
  find_of_distinct_keys (fun known : Command => known.name) registry.commands
    ordered.names_are_distinct name command

/-- A registry is decided by what it finds. -/
theorem eq_of_lookup (ordered : registry.Ordered) (otherOrdered : other.Ordered)
    (same : ∀ name, registry.lookup name = other.lookup name) : registry = other := by
  have members : ∀ command, command ∈ registry.commands ↔ command ∈ other.commands := by
    intro command
    have found : registry.lookup command.name = some command ↔ other.lookup command.name = some command := by
      rw [same]
    rw [ordered.lookup_iff, otherOrdered.lookup_iff] at found
    simpa using found
  have permuted : registry.commands.Perm other.commands :=
    (List.perm_ext_iff_of_nodup ordered.commands_are_distinct otherOrdered.commands_are_distinct).mpr members
  have equal : registry.commands = other.commands :=
    List.Perm.eq_of_pairwise (fun _ _ _ _ less more => absurd more (String.lt_asymm less))
      ordered otherOrdered permuted
  cases registry
  cases other
  exact congrArg Registry.mk equal

/-- The listing has one entry for each command that is found. -/
theorem mem_list_iff (ordered : registry.Ordered) {name summary : String} :
    (name, summary) ∈ registry.list ↔ ∃ command, registry.lookup name = some command ∧
      command.summary = summary := by
  simp only [list, List.mem_map, Prod.mk.injEq, ordered.lookup_iff, and_assoc]

theorem mem_listed_names_iff (ordered : registry.Ordered) {name : String} :
    name ∈ registry.list.map Prod.fst ↔ registry.lookup name ≠ none := by
  rw [Option.ne_none_iff_exists']
  simp only [List.mem_map, Prod.exists, exists_and_right, exists_eq_right, ordered.mem_list_iff]
  constructor
  · rintro ⟨_, command, found, _⟩
    exact ⟨command, found⟩
  · rintro ⟨command, found⟩
    exact ⟨command.summary, command, found, rfl⟩

/-- Commands are listed in the order of their names. -/
theorem listed_names_increase (ordered : registry.Ordered) : (registry.list.map Prod.fst).Pairwise (· < ·) := by
  rw [list, List.map_map]
  exact List.pairwise_map.mpr ordered

end Ordered

/-- Help about another word says that the word is unknown exactly if it is not registered. -/
theorem help_line_is_unknown_iff {registry : Registry} {word : String} {setting : Setting} {world : World}
    (other : word ≠ "help") :
    (registry.run setting world ⟨"help", [word]⟩).1 = .error (.unknownCommand word) ↔
      registry.lookup word = none := by
  have asked : (registry.run setting world ⟨"help", [word]⟩).1 = registry.help [word] := rfl
  rw [asked, help_about_an_unknown_command]
  simp [other]

/-- A command that is not one of the terminal's own may answer anything. Unless it answers itself that its
name is unknown, that answer tells that nothing is registered. -/
theorem unknown_line_iff {history : List Registration} {word : String} {setting : Setting} {world : World}
    {arguments : List String} (other : word ≠ "help")
    (customs : ∀ command, Registration.custom command ∈ history → IsLastNamed (registered history) word command →
      (command.run setting world arguments).1 ≠ .error (.unknownCommand word)) :
    ((ofHistory history).run setting world ⟨word, arguments⟩).1 = .error (.unknownCommand word) ↔
      (ofHistory history).lookup word = none := by
  cases found : (ofHistory history).lookup word with
  | none => simp [run_of_unknown other found]
  | some command =>
    rw [run_of_found other found]
    have isLast := lookup_registered_iff.mp found
    obtain ⟨registration, done, member⟩ := List.mem_flatMap.mp isLast.mem
    have knows : (command.run setting world arguments).1 ≠ .error (.unknownCommand word) := by
      rcases registration.of_the_terminal_or_custom member with own | rfl
      · exact commands_know_themselves command own setting world arguments word
      · exact customs command done isLast
    simpa using knows

end Registry

/-- After any history, a name finds the command that was registered last under it. The listing has one entry
for each name that was registered, in the order of the names, with what that command says about itself, and
histories that end with the same command under each name have the same listing. A line whose word is not
`help` is answered that its word is unknown if nothing is registered under it, as `help` about the word is,
and is otherwise carried out by the command that was registered last, with the arguments of the line. So it is
answered in that way in no other case, unless the command that was registered last is not one of the
terminal's and does so itself. -/
theorem last_registered_command_counts (history : List Registration) :
    let commands := registered history
    let registry := Registry.ofHistory history
    (∀ name command, registry.lookup name = some command ↔ IsLastNamed commands name command) ∧
    (registry.list.map Prod.fst).Pairwise (· < ·) ∧
    (∀ name, name ∈ registry.list.map Prod.fst ↔ ∃ command ∈ commands, command.name = name) ∧
    (∀ name summary, (name, summary) ∈ registry.list ↔
      ∃ command, IsLastNamed commands name command ∧ command.summary = summary) ∧
    (∀ others : List Registration,
      (∀ name command, IsLastNamed (registered others) name command ↔ IsLastNamed commands name command) →
      (Registry.ofHistory others).list = registry.list) ∧
    ∀ word, word ≠ "help" → ∀ setting world arguments,
      ((registry.run setting world ⟨"help", [word]⟩).1 = .error (.unknownCommand word) ↔
        ∀ command ∈ commands, command.name ≠ word) ∧
      ((∀ command ∈ commands, command.name ≠ word) →
        registry.run setting world ⟨word, arguments⟩ = (.error (.unknownCommand word), world)) ∧
      (∀ command, IsLastNamed commands word command →
        registry.run setting world ⟨word, arguments⟩ = command.run setting world arguments) ∧
      ((∀ command, .custom command ∈ history → IsLastNamed commands word command →
          (command.run setting world arguments).1 ≠ .error (.unknownCommand word)) →
        ((registry.run setting world ⟨word, arguments⟩).1 = .error (.unknownCommand word) ↔
          ∀ command ∈ commands, command.name ≠ word)) := by
  intro commands registry
  have ordered := Registry.Ordered.ofHistory history
  refine ⟨fun name command => Registry.lookup_registered_iff, ordered.listed_names_increase, ?_, ?_, ?_, ?_⟩
  · intro name
    rw [ordered.mem_listed_names_iff, ne_eq, Registry.lookup_misses_iff]
    simp only [Classical.not_forall, Classical.not_not, exists_prop, commands]
  · intro name summary
    simp only [registry, commands, ordered.mem_list_iff, Registry.lookup_registered_iff]
  · intro others same
    have equal : Registry.ofHistory others = registry := by
      refine (Registry.Ordered.ofHistory others).eq_of_lookup ordered fun name => ?_
      refine Option.ext fun command => ?_
      rw [Registry.lookup_registered_iff, Registry.lookup_registered_iff]
      exact same name command
    rw [equal]
  · intro word other setting world arguments
    refine ⟨?_, ?_, ?_, ?_⟩
    · exact (Registry.help_line_is_unknown_iff other).trans Registry.lookup_misses_iff
    · exact fun unknown => Registry.run_of_unknown other (Registry.lookup_misses_iff.mpr unknown)
    · exact fun command isLast => Registry.run_of_found other (Registry.lookup_registered_iff.mpr isLast)
    · exact fun customs => (Registry.unknown_line_iff other customs).trans Registry.lookup_misses_iff

/-- A command that says that it is unknown. -/
def denying (name : String) : Command where
  name := name
  summary := "Deny everything"
  usage := name
  run := fun _ world _ => (.error (.unknownCommand name), world)

/-- The answer that a word is unknown does not tell that nothing is registered under it: a command that is
registered may answer so itself, while `help` knows it. And a name of two words is none that a line can ask
about, so that `help` does not call it unknown when nothing is registered under it. -/
theorem registered_command_may_deny_itself :
    let history : List Registration := [.custom (denying "foo")]
    let registry := Registry.ofHistory history
    let world : World := .ofSeed 0
    IsLastNamed (registered history) "foo" (denying "foo") ∧
      (registry.run ⟨{}, ""⟩ world ⟨"foo", []⟩).1 = .error (.unknownCommand "foo") ∧
      (registry.run ⟨{}, ""⟩ world ⟨"help", ["foo"]⟩).1 ≠ .error (.unknownCommand "foo") ∧
      (¬ ∀ (history : List Registration) (word : String) (setting : Setting) (world : World)
        (arguments : List String), word ≠ "help" →
        (((Registry.ofHistory history).run setting world ⟨word, arguments⟩).1 = .error (.unknownCommand word) ↔
          ∀ command ∈ registered history, command.name ≠ word)) ∧
      (∀ command ∈ registered history, command.name ≠ "a b") ∧
      ∃ words, Line.parse "help a b" = some words ∧
        (registry.run ⟨{}, ""⟩ world words).1 = .error (.surplusArgument "help" "help [command]") := by
  intro history registry world
  have isLast : IsLastNamed (registered history) "foo" (denying "foo") := ⟨rfl, [], [], rfl, List.forall_mem_nil _⟩
  have denied : (registry.run ⟨{}, ""⟩ world ⟨"foo", []⟩).1 = .error (.unknownCommand "foo") :=
    congrArg Prod.fst (Registry.run_of_found (by decide) (Registry.lookup_registered_iff.mpr isLast))
  refine ⟨isLast, denied, ?_, fun always => ?_, by decide, ⟨"help", ["a", "b"]⟩, by decide +kernel, rfl⟩
  · rw [ne_eq, Registry.help_line_is_unknown_iff (by decide)]
    exact Option.ne_none_iff_exists'.mpr ⟨_, Registry.lookup_registered_iff.mpr isLast⟩
  · exact (always history "foo" ⟨{}, ""⟩ world [] (by decide)).mp denied (denying "foo") isLast.mem rfl

/-- A command that answers its arguments. -/
def echoing (name : String) : Command where
  name := name
  summary := "Show the arguments"
  usage := name
  run := fun _ world arguments => (.ok (.text (" ".intercalate arguments)), world)

/-- One command is replaced by one of the terminal, one replaces one of the terminal, and one has no name. -/
theorem commands_are_replaced_both_ways :
    let history : List Registration :=
      [.custom (echoing "pwd"), .terminal, .custom (echoing "ls"), .custom (echoing "")]
    let registry := Registry.ofHistory history
    let world : World := .ofSeed 0
    (Registry.ofHistory [.custom (echoing ""), .terminal, .custom (echoing "ls")]).list = registry.list ∧
      registry.run ⟨{}, ""⟩ world ⟨"ls", ["a", "b"]⟩ = (.ok (.text "a b"), world) ∧
      ((registry.run ⟨{}, ""⟩ world ⟨"ls", ["a", "b"]⟩).1 = .error (.unknownCommand "ls") ↔
        ∀ command ∈ registered history, command.name ≠ "ls") ∧
      (registry.run ⟨{}, ""⟩ world ⟨"top", ["a"]⟩).1 = .error (.unknownCommand "top") ∧
      (registry.run ⟨{}, ""⟩ world ⟨"help", ["top"]⟩).1 = .error (.unknownCommand "top") := by
  intro history registry world
  obtain ⟨-, -, -, -, listed, lines⟩ := last_registered_command_counts history
  have unnamed : Terminal.commands.reverse.find? (·.name == "") = none := rfl
  have known : (Terminal.commands.reverse.find? (·.name == "pwd")).isSome = true := rfl
  have same : ∀ name command,
      IsLastNamed (registered [.custom (echoing ""), .terminal, .custom (echoing "ls")]) name command ↔
        IsLastNamed (registered history) name command := by
    intro name command
    rw [← find_last_named_iff, ← find_last_named_iff]
    have left : (registered [.custom (echoing ""), .terminal, .custom (echoing "ls")]).reverse =
        echoing "ls" :: (Terminal.commands.reverse ++ [echoing ""]) := rfl
    have right : (registered history).reverse =
        echoing "" :: echoing "ls" :: (Terminal.commands.reverse ++ [echoing "pwd"]) := rfl
    rw [left, right]
    by_cases empty : name = ""
    · subst empty
      simp [List.find?_append, echoing, unnamed]
    · by_cases pwd : name = "pwd"
      · subst pwd
        simp [List.find?_append, echoing, Option.or_of_isSome known]
      · simp [List.find?_append, List.find?_cons, echoing, Ne.symm empty, Ne.symm pwd]
  have nothing : ∀ command ∈ registered history, command.name ≠ "top" := by
    decide
  have shadowing : IsLastNamed (registered history) "ls" (echoing "ls") :=
    ⟨rfl, echoing "pwd" :: Terminal.commands, [echoing ""], rfl, by decide⟩
  have echoes : ∀ command, .custom command ∈ history → ∃ name, command = echoing name := by
    intro command member
    simp only [history, List.mem_cons, List.not_mem_nil, or_false, reduceCtorEq, false_or,
      Registration.custom.injEq] at member
    rcases member with rfl | rfl | rfl <;> exact ⟨_, rfl⟩
  have found := lines "ls" (by decide) ⟨{}, ""⟩ world ["a", "b"]
  have missed := lines "top" (by decide) ⟨{}, ""⟩ world ["a"]
  refine ⟨listed _ same, found.2.2.1 _ shadowing, ?_, ?_, ?_⟩
  · refine found.2.2.2 fun command member _ => ?_
    obtain ⟨name, rfl⟩ := echoes command member
    simp [echoing]
  · refine (missed.2.2.2 fun command member named => ?_).mpr nothing
    exact absurd named.named (nothing command (List.mem_flatMap.mpr ⟨_, member, List.mem_singleton.mpr rfl⟩))
  · exact missed.1.mpr nothing

end CloudTerminal
