import CloudTerminal.Proofs.Dispatch

/-!
What a line that succeeds does, told by the command that it names. Each command that changes the world has its
lemma, which says what the line has said and which one entry is new, changed or gone; all other lines leave
the world as it was (`quiet_line_leaves_the_world`). `successful_line_has_its_exact_effect` puts them
together.
-/

namespace CloudTerminal

/-- The entry of a name with what stands before and after it, where no other entry has the name. -/
structure Directory.Place {α : Type} [Named α] (d : Directory α) (name : String) (front : List α) (entry : α)
    (back : List α) : Prop where
  list : d.toList = front ++ entry :: back
  named : Named.name entry = name
  alone : ∀ other ∈ front ++ back, Named.name other ≠ name

theorem Directory.place_of_split {α : Type} [Named α] {d : Directory α} {name : String} {front back : List α}
    {entry : α} (distinct : d.Distinct) (found : d.split? name = some (front, entry, back)) :
    d.Place name front entry back := by
  obtain ⟨list, rfl, _⟩ := split?_eq_some_iff.mp found
  obtain ⟨before, behind⟩ := others_are_named_otherwise distinct list
  refine ⟨list, rfl, fun other member => ?_⟩
  rcases List.mem_append.mp member with earlier | later
  · exact before other earlier
  · exact behind other later

/-- What the commands that change the world do to it when they succeed, and what all others do, which is
nothing. -/
structure ExactEffect (world : World) (words : Line) (next : World) : Prop where
  create : words.command = "create" → ∃ type i, words.arguments = ["instance", i.name, type.text] ∧
    i.type = type ∧ i.power = .running ∧
    next = { world with ids := next.ids, store.instances := ⟨world.store.instances.toList ++ [i]⟩ }
  power : ∀ power : Power, words.command = power.verb → ∃ name front i back,
    words.arguments = ["instance", name] ∧ world.store.instances.Place name front i back ∧
    next = { world with store.instances := ⟨front ++ { i with power } :: back⟩ }
  delete : words.command = "delete" → ∃ name front i back,
    words.arguments = ["instance", name] ∧ world.store.instances.Place name front i back ∧
    next = { world with store.instances := ⟨front ++ back⟩ }
  generate : words.command = "ssh-keygen" → ∃ key, key.added = false ∧
    next = { world with ids := next.ids, store.keys := ⟨world.store.keys.toList ++ [key]⟩ }
  mark : words.command = "ssh-add" → ∃ name front key back,
    words.arguments = [name] ∧ world.store.keys.Place name front key back ∧
    next = { world with store.keys := ⟨front ++ { key with added := true } :: back⟩ }
  discard : words.command = "ssh-remove" → ∃ name front key back,
    words.arguments = [name] ∧ world.store.keys.Place name front key back ∧
    next = { world with store.keys := ⟨front ++ back⟩ }
  clone : words.command = "git" → words.arguments.head? = some "clone" → ∃ repository,
    next = { world with
      clones := next.clones
      store.repositories := ⟨world.store.repositories.toList ++ [repository]⟩ }
  others : words.changes = false → next = world
  clones : next.clones ≠ world.clones → words.command = "git" ∧ words.arguments.head? = some "clone"
  ids : next.ids ≠ world.ids → words.command = "create" ∨ words.command = "ssh-keygen"

variable {setting : Setting} {world next : World} {words : Line} {reply : Reply}

/-- The new instance runs, has the name and the type that the line gives, and stands last. Identifiers may be
drawn for it. -/
theorem create_appends_a_running_instance (effect : LineEffect setting world words (.ok reply, next))
    (command : words.command = "create") :
    ∃ type i, words.arguments = ["instance", i.name, type.text] ∧ i.type = type ∧ i.power = .running ∧
      next = { world with ids := next.ids, store.instances := ⟨world.store.instances.toList ++ [i]⟩ } := by
  cases effect
  case create name type said free =>
    subst said
    exact ⟨type, .launch world.ids.instanceId.1 name type setting.clock, rfl, rfl, rfl, rfl⟩
  all_goals simp_all [Line.changes, Power.verb_eq_iff]

/-- Starting and stopping change the power of the named instance at its place, and nothing else. -/
theorem power_changes_the_named_instance (distinct : world.store.instances.Distinct) (power : Power)
    (effect : LineEffect setting world words (.ok reply, next)) (command : words.command = power.verb) :
    ∃ name front i back,
      words.arguments = ["instance", name] ∧ world.store.instances.Place name front i back ∧
      next = { world with store.instances := ⟨front ++ { i with power } :: back⟩ } := by
  cases effect
  case power name power' front back i said found other =>
    subst said
    obtain rfl := power_of_its_verb command
    exact ⟨name, front, i, back, rfl, Directory.place_of_split distinct found, rfl⟩
  all_goals cases power <;> simp_all [Line.changes, Power.verb]

theorem delete_takes_out_the_named_instance (distinct : world.store.instances.Distinct)
    (effect : LineEffect setting world words (.ok reply, next)) (command : words.command = "delete") :
    ∃ name front i back,
      words.arguments = ["instance", name] ∧ world.store.instances.Place name front i back ∧
      next = { world with store.instances := ⟨front ++ back⟩ } := by
  cases effect
  case delete name front back i said found =>
    subst said
    exact ⟨name, front, i, back, rfl, Directory.place_of_split distinct found, rfl⟩
  all_goals simp_all [Line.changes, Power.verb_eq_iff]

/-- The new key stands last, and the agent does not hold it yet. -/
theorem keygen_appends_a_key (effect : LineEffect setting world words (.ok reply, next))
    (command : words.command = "ssh-keygen") :
    ∃ key, key.added = false ∧
      next = { world with ids := next.ids, store.keys := ⟨world.store.keys.toList ++ [key]⟩ } := by
  cases effect
  case generate name name? key said named free made =>
    subst made
    exact ⟨_, rfl, rfl⟩
  all_goals simp_all [Line.changes, Power.verb_eq_iff]

theorem ssh_add_marks_the_named_key (distinct : world.store.keys.Distinct)
    (effect : LineEffect setting world words (.ok reply, next)) (command : words.command = "ssh-add") :
    ∃ name front key back, words.arguments = [name] ∧ world.store.keys.Place name front key back ∧
      next = { world with store.keys := ⟨front ++ { key with added := true } :: back⟩ } := by
  cases effect
  case mark name front back key said found =>
    subst said
    exact ⟨name, front, key, back, rfl, Directory.place_of_split distinct found, rfl⟩
  all_goals simp_all [Line.changes, Power.verb_eq_iff]

theorem ssh_remove_takes_out_the_named_key (distinct : world.store.keys.Distinct)
    (effect : LineEffect setting world words (.ok reply, next)) (command : words.command = "ssh-remove") :
    ∃ name front key back, words.arguments = [name] ∧ world.store.keys.Place name front key back ∧
      next = { world with store.keys := ⟨front ++ back⟩ } := by
  cases effect
  case discard name front back key said found =>
    subst said
    exact ⟨name, front, key, back, rfl, Directory.place_of_split distinct found, rfl⟩
  all_goals simp_all [Line.changes, Power.verb_eq_iff]

/-- The new repository stands last, and its job waits behind all others. -/
theorem clone_appends_a_repository (effect : LineEffect setting world words (.ok reply, next))
    (command : words.command = "git") (word : words.arguments.head? = some "clone") :
    ∃ repository, next = { world with
      clones := next.clones
      store.repositories := ⟨world.store.repositories.toList ++ [repository]⟩ } := by
  cases effect
  case clone url name name? said named clear free idle => exact ⟨_, rfl⟩
  all_goals simp_all [Line.changes, Power.verb_eq_iff]

/-- Lines of the other commands answer from the world and leave it as they find it. -/
theorem quiet_line_leaves_the_world (effect : LineEffect setting world words (.ok reply, next))
    (quiet : words.changes = false) : next = world := by
  cases effect
  case look => rfl
  case power name power _ _ _ said _ _ => cases power <;> simp_all [Line.changes, Power.verb]
  all_goals simp_all [Line.changes]

theorem only_clones_move_the_queue (effect : LineEffect setting world words (.ok reply, next))
    (moved : next.clones ≠ world.clones) : words.command = "git" ∧ words.arguments.head? = some "clone" := by
  cases effect
  case clone url name name? said named clear free idle =>
    subst said
    exact ⟨rfl, rfl⟩
  all_goals exact absurd rfl moved

/-- No line but those that create an instance or a key draws identifiers. -/
theorem only_create_and_keygen_draw (effect : LineEffect setting world words (.ok reply, next))
    (drawn : next.ids ≠ world.ids) : words.command = "create" ∨ words.command = "ssh-keygen" := by
  cases effect
  case create name type said free =>
    subst said
    exact .inl rfl
  case generate name name? key said named free made =>
    subst said
    exact .inr rfl
  all_goals exact absurd rfl drawn

/-- In a world where names are distinct, a line that succeeds has the effect of its command and no other. A
line that creates appends one running instance, one that starts or stops changes the power state of the
instance that it names, one that deletes takes that instance out; a generated key is appended unmarked,
`ssh-add` marks the key that it names, `ssh-remove` takes it out; a clone appends one repository. All else
stays, in its order. Every other line leaves the world as it was; only clones move the queue, and only new
instances and keys draw on the identifiers. -/
theorem successful_line_has_its_exact_effect (setting : Setting) (world next : World) (words : Line)
    (reply : Reply) (instances : world.store.instances.Distinct) (keys : world.store.keys.Distinct)
    (ran : Terminal.registry.run setting world words = (.ok reply, next)) : ExactEffect world words next := by
  have effect : LineEffect setting world words (.ok reply, next) := ran ▸ run_has_effect setting world words
  exact
    { create := create_appends_a_running_instance effect
      power := fun power => power_changes_the_named_instance instances power effect
      delete := delete_takes_out_the_named_instance instances effect
      generate := keygen_appends_a_key effect
      mark := ssh_add_marks_the_named_key keys effect
      discard := ssh_remove_takes_out_the_named_key keys effect
      clone := clone_appends_a_repository effect
      others := quiet_line_leaves_the_world effect
      clones := only_clones_move_the_queue effect
      ids := only_create_and_keygen_draw effect }

/-- Three instances, the second of which is stopped, and a key. -/
def threeInstances : World where
  ids := .ofSeed 0
  store.instances := ⟨[.launch "i-1" "web" .compute "08:00:00",
    { Instance.launch "i-2" "db" .database "08:01:00" with power := .stopped },
    .launch "i-3" "vault" .security "08:02:00"]⟩
  store.keys := ⟨[{ name := "id", publicKey := "ssh-ed25519 A", fingerprint := "00", created := "08:03:00" }]⟩

/-- Starting the second of three instances leaves the others, and all else, as they were. -/
theorem started_between_two_others :
    let next : World := { threeInstances with
      store.instances := ⟨threeInstances.store.instances.toList.map fun i => { i with power := .running }⟩ }
    let words : Line := ⟨"start", ["instance", "db"]⟩
    let reply : Reply := .text "Starting instance 'db' (i-2)... done\n  Status: running"
    threeInstances.store.instances.Distinct ∧ threeInstances.store.keys.Distinct ∧
      Terminal.registry.run ⟨{}, "12:00:00"⟩ threeInstances words = (.ok reply, next) ∧
      ExactEffect threeInstances words next := by
  intro next words reply
  have instances : threeInstances.store.instances.Distinct := by
    unfold Directory.Distinct
    decide
  have keys : threeInstances.store.keys.Distinct := by
    unfold Directory.Distinct
    decide
  have ran : Terminal.registry.run ⟨{}, "12:00:00"⟩ threeInstances words = (.ok reply, next) := rfl
  exact ⟨instances, keys, ran, successful_line_has_its_exact_effect _ _ _ _ _ instances keys ran⟩

end CloudTerminal
