import CloudTerminal.Proofs.Directory
import CloudTerminal.Terminal

/-!
What carrying out a line does to the world. `LineEffect` lists every way in which a line can end: it is
refused and the world stays as it was, it only looks, or it makes one of seven changes, each under its own
conditions. Every command of the terminal ends its lines in one of these ways, in every world, whether or
not a session can reach it (`commands_have_effect`).
-/

namespace CloudTerminal

section Arguments

variable {manual : Manual} {arguments rest : List String} {first second word : String}
  {argument? second? : Option String}

theorem takes_one_argument : manual.oneArgument arguments = .ok first ↔ arguments = [first] := by
  unfold Manual.oneArgument
  split <;> simp_all

theorem takes_optional_argument :
    manual.optionalArgument arguments = .ok argument? ↔ arguments = argument?.toList := by
  unfold Manual.optionalArgument
  split
  · cases argument? <;> simp
  · cases argument? <;> simp
  · rename_i none one
    cases argument? with
    | none => simpa using none
    | some argument => simpa using one argument

theorem takes_two_arguments :
    manual.twoArguments arguments = .ok (first, second) ↔ arguments = [first, second] := by
  unfold Manual.twoArguments
  split <;> simp_all

theorem takes_one_argument_or_two :
    manual.oneArgumentOrTwo arguments = .ok (first, second?) ↔
      arguments = first :: second?.toList := by
  unfold Manual.oneArgumentOrTwo
  split
  · cases second? <;> simp
  · cases second? <;> simp
  · rename_i one two
    cases second? with
    | none => simpa using one first
    | some second => simpa using two first second

theorem takes_the_word_first :
    manual.afterWord word arguments = .ok rest ↔ arguments = word :: rest := by
  unfold Manual.afterWord
  split
  · simp
  · split <;> simp_all

/-- What is parsed behind a fixed word. -/
theorem takes_the_word_and_then {α : Type} {parse : List String → Except Error α} {result : α} :
    (manual.afterWord word arguments).bind parse = .ok result ↔
      ∃ rest, arguments = word :: rest ∧ parse rest = .ok result := by
  constructor
  · intro parsed
    cases worded : manual.afterWord word arguments with
    | error e =>
      rw [worded] at parsed
      cases parsed
    | ok rest =>
      rw [worded] at parsed
      exact ⟨rest, takes_the_word_first.mp worded, parsed⟩
  · rintro ⟨rest, shape, parsed⟩
    rw [takes_the_word_first.mpr shape]
    exact parsed

theorem names_an_instance :
    Instance.nameArgument manual arguments = .ok first ↔ arguments = ["instance", first] := by
  have bound : Instance.nameArgument manual arguments =
      (manual.afterWord "instance" arguments).bind manual.oneArgument := by
    unfold Instance.nameArgument
    cases manual.afterWord "instance" arguments <;> rfl
  rw [bound, takes_the_word_and_then]
  simp [takes_one_argument]

theorem names_a_new_instance :
    (manual.afterWord "instance" arguments).bind manual.twoArguments = .ok (first, second) ↔
      arguments = ["instance", first, second] := by
  rw [takes_the_word_and_then]
  simp [takes_two_arguments]

/-- A type is meant by its own text only, so that the text can be put back for it. -/
theorem type_named_by_its_text {type : InstanceType} :
    InstanceType.ofText? word = some type ↔ word = type.text := by
  constructor
  · intro found
    unfold InstanceType.ofText? at found
    have same := List.find?_some found
    simpa using (eq_of_beq same).symm
  · rintro rfl
    exact type.ofText?_text

end Arguments

/-- Whether the words are those of a line that may change the world when it is not refused. -/
def Line.changes (words : Line) : Bool :=
  ["create", "start", "stop", "delete", "ssh-keygen", "ssh-add", "ssh-remove"].contains words.command ||
    words.command == "git" && words.arguments.head? == some "clone"

/-- The word of the command that brings an instance into a power state. -/
def Power.verb : Power → String
  | running => "start"
  | stopped => "stop"

theorem Power.verb_eq_iff {power : Power} {word : String} :
    power.verb = word ↔ power = running ∧ word = "start" ∨ power = stopped ∧ word = "stop" := by
  cases power <;> simp [verb, eq_comm]

theorem power_of_its_verb {power other : Power} (same : power.verb = other.verb) : power = other := by
  cases power <;> cases other <;> first | rfl | exact absurd same (by decide)

/-- What is shown of an instance when it has been created. -/
def Instance.confirmation (type : InstanceType) (name id : String) : String :=
  s!"Created {type.text} instance '{name}'\n  ID:     {id}\n  Status: running"

/-- The repository that a clone adds. Without a delay its clone is over at once. -/
def Repository.cloneOf (delay : Nat) (url name : String) : Repository :=
  { name, url, status := if delay = 0 then cloneOutcome url else .cloning }

/-- The job that a clone schedules, if it has to wait. -/
def CloneJob.ofClone (delay : Nat) (url name : String) : List CloneJob :=
  if delay = 0 then []
  else [{ repository := name, remaining := delay, outcome := Repository.cloneOutcome url }]

/-- How a line can end, and what it has then done to the world. -/
inductive LineEffect (setting : Setting) (world : World) (words : Line) : Outcome → Prop where
  | refused (e : Error) : LineEffect setting world words (.error e, world)
  | look (reply : Reply) (quiet : words.changes = false) :
    LineEffect setting world words (.ok reply, world)
  | create (name : String) (type : InstanceType)
      (said : words = ⟨"create", ["instance", name, type.text]⟩)
      (free : world.store.instances.contains name = false) :
    LineEffect setting world words
      (.ok (.text (Instance.confirmation type name world.ids.instanceId.1)),
        { world with
          ids := world.ids.instanceId.2
          store.instances := ⟨world.store.instances.toList ++
            [.launch world.ids.instanceId.1 name type setting.clock]⟩ })
  | power (reply : Reply) (name : String) (power : Power) (front back : List Instance) (i : Instance)
      (said : words = ⟨power.verb, ["instance", name]⟩)
      (found : world.store.instances.split? name = some (front, i, back)) (other : i.power ≠ power) :
    LineEffect setting world words
      (.ok reply, { world with store.instances := ⟨front ++ { i with power } :: back⟩ })
  | delete (reply : Reply) (name : String) (front back : List Instance) (i : Instance)
      (said : words = ⟨"delete", ["instance", name]⟩)
      (found : world.store.instances.split? name = some (front, i, back)) :
    LineEffect setting world words (.ok reply, { world with store.instances := ⟨front ++ back⟩ })
  | generate (name : String) (name? : Option String) (key : Key)
      (said : words = ⟨"ssh-keygen", name?.toList⟩)
      (named : Key.newName world.store.keys name? = .ok name)
      (free : world.store.keys.contains name = false)
      (made : key = .generate name (world.ids.publicKey setting.config.identity).1 setting.clock) :
    LineEffect setting world words
      (.ok (.text (Key.announcement setting.config key)),
        { world with
          ids := (world.ids.publicKey setting.config.identity).2
          store.keys := ⟨world.store.keys.toList ++ [key]⟩ })
  | mark (reply : Reply) (name : String) (front back : List Key) (key : Key)
      (said : words = ⟨"ssh-add", [name]⟩)
      (found : world.store.keys.split? name = some (front, key, back)) :
    LineEffect setting world words
      (.ok reply, { world with store.keys := ⟨front ++ { key with added := true } :: back⟩ })
  | discard (reply : Reply) (name : String) (front back : List Key) (key : Key)
      (said : words = ⟨"ssh-remove", [name]⟩)
      (found : world.store.keys.split? name = some (front, key, back)) :
    LineEffect setting world words (.ok reply, { world with store.keys := ⟨front ++ back⟩ })
  | clone (url name : String) (name? : Option String)
      (said : words = ⟨"git", "clone" :: url :: name?.toList⟩)
      (named : Repository.directoryFor url name? = .ok name) (clear : Home.isFixed name = false)
      (free : world.store.repositories.contains name = false)
      (idle : world.clones.isPending name = false) :
    LineEffect setting world words
      (.ok (.text ("\n".intercalate (Repository.cloneLines url name setting.config.cloneDelay))),
        { world with
          store.repositories := ⟨world.store.repositories.toList ++
            [.cloneOf setting.config.cloneDelay url name]⟩
          clones := ⟨world.clones.jobs ++ CloneJob.ofClone setting.config.cloneDelay url name⟩ })

variable (setting : Setting) (world : World) (arguments : List String)

theorem create_has_effect :
    LineEffect setting world ⟨"create", arguments⟩ (Instance.create.run setting world arguments) := by
  simp only [Instance.create]
  split
  · exact .refused _
  · rename_i name word parsed
    have shape := names_a_new_instance.mp parsed
    split
    · exact .refused _
    · rename_i type named
      rw [type_named_by_its_text.mp named] at shape
      split
      · exact .refused _
      · rename_i taken
        have free : world.store.instances.contains name = false := by simpa using taken
        rw [Directory.add_of_free _ free]
        exact .create name type (congrArg (Line.mk "create") shape) free

/-- Starting and stopping are one change, under the verb that the power state goes by. -/
theorem changing_has_effect (power : Power) (manual : Manual)
    (answer : String → String → String) :
    LineEffect setting world ⟨power.verb, arguments⟩
      ((Instance.changing manual (Instance.enter power) answer).run setting world arguments) := by
  simp only [Instance.changing]
  split
  · exact .refused _
  · rename_i name parsed
    have shape := names_an_instance.mp parsed
    split
    · exact .refused _
    · rename_i id instances updated
      obtain ⟨front, i, back, changed, found, made, list⟩ := Directory.update_eq_ok_iff.mp updated
      unfold Instance.enter at made
      split at made
      · cases made
      · rename_i other
        cases made
        cases instances
        cases list
        exact .power _ name power front back i (congrArg (Line.mk power.verb) shape) found other

theorem delete_has_effect :
    LineEffect setting world ⟨"delete", arguments⟩ (Instance.delete.run setting world arguments) := by
  simp only [Instance.delete]
  split
  · exact .refused _
  · rename_i name parsed
    split
    · exact .refused _
    · rename_i i instances removed
      obtain ⟨front, back, found, list⟩ := Directory.remove_eq_ok_iff.mp removed
      cases instances
      cases list
      exact .delete _ name front back i
        (congrArg (Line.mk "delete") (names_an_instance.mp parsed)) found

/-- The generation of a key does what is said of it, with a given name or a free one, or it is refused. -/
theorem keygen_has_effect :
    LineEffect setting world ⟨"ssh-keygen", arguments⟩ (Key.keygen.run setting world arguments) := by
  simp only [Key.keygen]
  split
  · exact .refused _
  · rename_i name chosen
    split
    · exact .refused _
    · rename_i taken
      have free : world.store.keys.contains name = false := by simpa using taken
      obtain ⟨name?, parsed, named⟩ : ∃ name?,
          Key.keygenManual.optionalArgument arguments = .ok name? ∧
            Key.newName world.store.keys name? = .ok name := by
        cases parsed : Key.keygenManual.optionalArgument arguments with
        | error e => rw [parsed] at chosen; cases chosen
        | ok name? => rw [parsed] at chosen; exact ⟨name?, rfl, chosen⟩
      have shape := takes_optional_argument.mp parsed
      rw [Directory.add_of_free (Key.generate name _ setting.clock) free]
      exact .generate name name? _ (congrArg (Line.mk "ssh-keygen") shape) named free rfl

theorem ssh_add_has_effect :
    LineEffect setting world ⟨"ssh-add", arguments⟩ (Key.add.run setting world arguments) := by
  simp only [Key.add]
  split
  · exact .refused _
  · rename_i name parsed
    split
    · exact .refused _
    · rename_i isNew keys updated
      obtain ⟨front, key, back, changed, found, made, list⟩ := Directory.update_eq_ok_iff.mp updated
      cases made
      cases keys
      cases list
      exact .mark _ name front back key
        (congrArg (Line.mk "ssh-add") (takes_one_argument.mp parsed)) found

theorem ssh_remove_has_effect :
    LineEffect setting world ⟨"ssh-remove", arguments⟩ (Key.remove.run setting world arguments) := by
  simp only [Key.remove]
  split
  · exact .refused _
  · rename_i name parsed
    split
    · exact .refused _
    · rename_i key keys removed
      obtain ⟨front, back, found, list⟩ := Directory.remove_eq_ok_iff.mp removed
      cases keys
      cases list
      exact .discard _ name front back key
        (congrArg (Line.mk "ssh-remove") (takes_one_argument.mp parsed)) found

section Clone

variable {setting world} {url name : String}

theorem clone_outcome_is_final (url : String) : (Repository.cloneOutcome url).isFinal = true := by
  unfold Repository.cloneOutcome
  split <;> rfl

theorem clone_outcome_is_not_cloning (url : String) : Repository.cloneOutcome url ≠ .cloning :=
  (CloneStatus.isFinal_iff _).mp (clone_outcome_is_final url)

/-- Settling the clone that was begun last ends that clone and touches nothing before it. -/
theorem settle_the_last_added {d : Directory Repository} (free : d.contains name = false) :
    CloneQueue.settle ⟨d.toList ++ [Repository.begin name url]⟩ name (Repository.cloneOutcome url) =
      .ok ⟨d.toList ++ [{ name, url, status := Repository.cloneOutcome url }]⟩ := by
  have found : (⟨d.toList ++ [Repository.begin name url]⟩ : Directory Repository).split? name =
      some (d.toList, Repository.begin name url, []) :=
    Directory.split_at_the_last_added (Repository.begin name url) free
  have resolved : (Repository.begin name url).resolve (Repository.cloneOutcome url) =
      .ok { name, url, status := Repository.cloneOutcome url } := by
    have fresh : (Repository.begin name url).status.isFinal = false := rfl
    simp only [Repository.resolve, fresh, clone_outcome_is_final, Bool.false_eq_true, if_false, if_true]
    rfl
  simp [CloneQueue.settle, Directory.update, found, resolved, Except.map]

/-- The end of a clone that has just been added is scheduled without a look at the other repositories. Without
a delay it comes at once. -/
theorem schedule_the_last_added {d : Directory Repository} {queue : CloneQueue} (delay : Nat)
    (free : d.contains name = false) (idle : queue.isPending name = false) :
    queue.schedule ⟨d.toList ++ [Repository.begin name url]⟩ name delay (Repository.cloneOutcome url) =
      .ok (⟨d.toList ++ [Repository.cloneOf delay url name]⟩,
        ⟨queue.jobs ++ CloneJob.ofClone delay url name⟩) := by
  unfold CloneQueue.schedule Repository.cloneOf CloneJob.ofClone
  by_cases immediate : delay = 0
  · simp [idle, immediate, settle_the_last_added free, Except.map]
  · simp [idle, immediate, Repository.begin]

/-- A clone whose end cannot be scheduled takes its repository out again, which restores the world. -/
theorem clone_restores_when_pending (free : world.store.repositories.contains name = false)
    (pending : world.clones.isPending name = true) :
    Repository.clone setting world url name = (.error (.pendingClone name), world) := by
  have added := Directory.add_of_free (Repository.begin name url) free
  have restored : (⟨world.store.repositories.toList ++ [Repository.begin name url]⟩ :
      Directory Repository).remove name = .ok (Repository.begin name url, world.store.repositories) :=
    Directory.removing_the_last_added_restores (Repository.begin name url) free
  simp only [Repository.clone, added, CloneQueue.schedule, pending, if_true]
  rw [restored]

/-- A clone under a free name that no job waits for succeeds, and its repository and job come last. -/
theorem clone_of_free (free : world.store.repositories.contains name = false)
    (idle : world.clones.isPending name = false) :
    Repository.clone setting world url name =
      (.ok (.text ("\n".intercalate (Repository.cloneLines url name setting.config.cloneDelay))),
        { world with
          store.repositories := ⟨world.store.repositories.toList ++
            [Repository.cloneOf setting.config.cloneDelay url name]⟩
          clones := ⟨world.clones.jobs ++ CloneJob.ofClone setting.config.cloneDelay url name⟩ }) := by
  have added := Directory.add_of_free (Repository.begin name url) free
  simp only [Repository.clone, added, schedule_the_last_added _ free idle]

theorem clone_of_taken (taken : world.store.repositories.contains name = true) :
    Repository.clone setting world url name =
      (.error (.duplicateName (Named.label Repository) name), world) := by
  have refused : world.store.repositories.add (Repository.begin name url) =
      .error (.duplicateName (Named.label Repository) name) := by
    simp only [Directory.add, Named.name, Repository.begin, taken, if_true]
  simp only [Repository.clone, refused]

end Clone

/-- Of the words behind `git`, only the one for clones changes anything. -/
theorem git_has_effect :
    LineEffect setting world ⟨"git", arguments⟩ (Repository.git.run setting world arguments) := by
  simp only [Repository.git]
  split
  · exact .refused _
  · rename_i rest
    unfold Repository.runClone
    split
    · exact .refused _
    · rename_i url name? parsed
      split
      · exact .refused _
      · rename_i name named
        split
        · exact .refused _
        · rename_i vacant
          cases taken : world.store.repositories.contains name with
          | true => rw [clone_of_taken taken]; exact .refused _
          | false =>
            cases pending : world.clones.isPending name with
            | true => rw [clone_restores_when_pending taken pending]; exact .refused _
            | false =>
              rw [clone_of_free taken pending]
              have shape := takes_one_argument_or_two.mp parsed
              exact .clone url name name? (congrArg (fun rest => Line.mk "git" ("clone" :: rest)) shape)
                named (by simpa using vacant) taken pending
  · rename_i rest
    cases Repository.viewList world.store rest with
    | error e => exact .refused _
    | ok reply => exact .look _ rfl
  · rename_i rest
    cases Repository.viewStatus world.store rest with
    | error e => exact .refused _
    | ok reply => exact .look _ rfl
  · exact .refused _

/-- Whatever its arguments and the world, the command ends its line in one of the ways of `LineEffect`. -/
def Command.HasEffect (command : Command) : Prop :=
  ∀ setting world arguments,
    LineEffect setting world ⟨command.name, arguments⟩ (command.run setting world arguments)

/-- A command that only reads the store looks, whatever it answers. -/
theorem reading_has_effect (manual : Manual)
    (view : Setting → Store → List String → Except Error Reply)
    (quiet : ∀ arguments, (⟨manual.name, arguments⟩ : Line).changes = false) :
    (Command.reading manual view).HasEffect := by
  intro setting world arguments
  simp only [Command.reading]
  cases view setting world.store arguments with
  | error e => exact .refused e
  | ok reply => exact .look reply (quiet arguments)

private theorem home_commands_have_effect : ∀ command ∈ Home.commands, command.HasEffect := by
  intro command member
  simp only [Home.commands, List.mem_cons, List.not_mem_nil, or_false] at member
  rcases member with rfl | rfl | rfl | rfl <;> exact reading_has_effect _ _ fun _ => rfl

private theorem host_commands_have_effect : ∀ command ∈ Host.commands, command.HasEffect := by
  intro command member
  simp only [Host.commands, List.mem_cons, List.not_mem_nil, or_false] at member
  rcases member with rfl | rfl | rfl | rfl | rfl <;> exact reading_has_effect _ _ fun _ => rfl

private theorem instance_commands_have_effect : ∀ command ∈ Instance.commands, command.HasEffect := by
  intro command member
  simp only [Instance.commands, List.mem_cons, List.not_mem_nil, or_false] at member
  rcases member with rfl | rfl | rfl | rfl | rfl | rfl
  · exact create_has_effect
  · exact reading_has_effect _ _ fun _ => rfl
  · exact fun setting world arguments => changing_has_effect setting world arguments .running _ _
  · exact fun setting world arguments => changing_has_effect setting world arguments .stopped _ _
  · exact reading_has_effect _ _ fun _ => rfl
  · exact delete_has_effect

private theorem key_commands_have_effect : ∀ command ∈ Key.commands, command.HasEffect := by
  intro command member
  simp only [Key.commands, List.mem_cons, List.not_mem_nil, or_false] at member
  rcases member with rfl | rfl | rfl | rfl | rfl
  · exact keygen_has_effect
  · exact ssh_add_has_effect
  · exact reading_has_effect _ _ fun _ => rfl
  · exact ssh_remove_has_effect
  · exact reading_has_effect _ _ fun _ => rfl

/-- Each command of the terminal has one of the effects, so that lines can be told apart by their effects. -/
theorem commands_have_effect : ∀ command ∈ Terminal.commands, command.HasEffect := by
  intro command member
  simp only [Terminal.commands, List.mem_append] at member
  rcases member with (((home | cloud) | keys) | host) | git
  · exact home_commands_have_effect command home
  · exact instance_commands_have_effect command cloud
  · exact key_commands_have_effect command keys
  · exact host_commands_have_effect command host
  · obtain rfl := List.mem_singleton.mp git
    exact git_has_effect

end CloudTerminal
