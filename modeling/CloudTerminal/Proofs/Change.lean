import CloudTerminal.Proofs.Run

/-!
The changes that lines ask for. `Asks` says of every change what the line has to say and what the world has to
allow; it looks at names, power states and waiting clones, never at identifiers, settings or the clock.
`Change.apply` is what the change makes of the world. Together they are exact: a change that is asked for is made
(`asked_change_is_made`), and a line that asks for none leaves the world (`unasked_line_leaves_the_world`).
-/

namespace CloudTerminal

inductive Family where
  | instances
  | keys
  | repositories
  deriving DecidableEq

/-- The words of the commands about the resources of a kind. -/
def Family.words : Family → List String
  | instances => ["create", "instances", "start", "stop", "describe", "delete"]
  | keys => ["ssh-keygen", "ssh-add", "ssh-list", "ssh-remove", "ssh"]
  | repositories => ["git"]

/-- Whether a line names a command about the resources of a kind. -/
def Line.isOf (words : Line) (family : Family) : Bool := family.words.contains words.command

inductive Change where
  | create (name : String) (type : InstanceType)
  | power (name : String) (power : Power)
  | delete (name : String)
  | generate (name : String)
  | mark (name : String)
  | discard (name : String)
  | clone (url name : String)

namespace Change

/-- The kind of the resources that a change is about. -/
def family : Change → Family
  | create _ _ => .instances
  | power _ _ => .instances
  | delete _ => .instances
  | generate _ => .keys
  | mark _ => .keys
  | discard _ => .keys
  | clone _ _ => .repositories

def apply (setting : Setting) (world : World) : Change → World
  | create name type =>
    { world with
      ids := world.ids.instanceId.2
      store.instances := ⟨world.store.instances.toList ++
        [.launch world.ids.instanceId.1 name type setting.clock]⟩ }
  | power name state =>
    { world with store.instances := world.store.instances.adapt name fun i => { i with power := state } }
  | delete name => { world with store.instances := world.store.instances.without name }
  | generate name =>
    { world with
      ids := (world.ids.publicKey setting.config.identity).2
      store.keys := ⟨world.store.keys.toList ++
        [.generate name (world.ids.publicKey setting.config.identity).1 setting.clock]⟩ }
  | mark name =>
    { world with store.keys := world.store.keys.adapt name fun key => { key with added := true } }
  | discard name => { world with store.keys := world.store.keys.without name }
  | clone url name =>
    { world with
      store.repositories := ⟨world.store.repositories.toList ++
        [.cloneOf setting.config.cloneDelay url name]⟩
      clones := ⟨world.clones.jobs ++ CloneJob.ofClone setting.config.cloneDelay url name⟩ }

end Change

/-- The line asks for the change, and the world allows it. -/
inductive Asks (world : World) : Line → Change → Prop where
  | create (name : String) (type : InstanceType)
      (free : world.store.instances.contains name = false) :
    Asks world ⟨"create", ["instance", name, type.text]⟩ (.create name type)
  | power (power : Power) (i : Instance) (held : i ∈ world.store.instances.toList)
      (other : i.power ≠ power) :
    Asks world ⟨power.verb, ["instance", i.name]⟩ (.power i.name power)
  | delete (name : String) (held : world.store.instances.contains name = true) :
    Asks world ⟨"delete", ["instance", name]⟩ (.delete name)
  | generate (name : String) (name? : Option String)
      (named : Key.newName world.store.keys name? = .ok name)
      (free : world.store.keys.contains name = false) :
    Asks world ⟨"ssh-keygen", name?.toList⟩ (.generate name)
  | mark (name : String) (held : world.store.keys.contains name = true) :
    Asks world ⟨"ssh-add", [name]⟩ (.mark name)
  | discard (name : String) (held : world.store.keys.contains name = true) :
    Asks world ⟨"ssh-remove", [name]⟩ (.discard name)
  | clone (url name : String) (name? : Option String)
      (named : Repository.directoryFor url name? = .ok name) (clear : Home.isFixed name = false)
      (free : world.store.repositories.contains name = false)
      (idle : world.clones.isPending name = false) :
    Asks world ⟨"git", "clone" :: url :: name?.toList⟩ (.clone url name)

/-- The instances have distinct names, and so have the keys. -/
structure DistinctNames (world : World) : Prop where
  instances : world.store.instances.Distinct
  keys : world.store.keys.Distinct

variable {setting : Setting} {world next : World} {words : Line} {result : Except Error Reply}
  {change : Change} {name : String}

theorem asks_in_its_family (asks : Asks world words change) : words.isOf change.family = true := by
  cases asks with
  | power power i held other => cases power <;> rfl
  | _ => rfl

/-- No command is about resources of two kinds. -/
theorem families_are_disjoint {first second : Family} (one : words.isOf first = true)
    (other : words.isOf second = true) : first = second := by
  have apart : ∀ first second : Family, first ≠ second →
      ∀ word ∈ first.words, second.words.contains word = false := by
    intro first second
    cases first <;> cases second <;> decide
  by_cases same : first = second
  · exact same
  · have foreign := apart first second same words.command (List.contains_iff_mem.mp one)
    rw [Line.isOf, foreign] at other
    cases other

section Made

private theorem create_of_free (type : InstanceType)
    (free : world.store.instances.contains name = false) :
    Instance.create.run setting world ["instance", name, type.text] =
      (.ok (.text (Instance.confirmation type name world.ids.instanceId.1)),
        (Change.create name type).apply setting world) := by
  have parsed : (Instance.createManual.afterWord "instance" ["instance", name, type.text]).bind
      Instance.createManual.twoArguments = .ok (name, type.text) := names_a_new_instance.mpr rfl
  have added := Directory.add_of_free
    (Instance.launch world.ids.instanceId.1 name type setting.clock) free
  simp only [Instance.create, parsed, InstanceType.ofText?_text, free, added, Bool.false_eq_true, if_false]
  rfl

private theorem changing_of_held {manual : Manual} {answer : String → String → String} {power : Power}
    {i : Instance} (distinct : world.store.instances.Distinct)
    (held : i ∈ world.store.instances.toList) (other : i.power ≠ power) :
    (Instance.changing manual (Instance.enter power) answer).run setting world ["instance", i.name] =
      (.ok (.text (answer i.name i.id)), (Change.power i.name power).apply setting world) := by
  obtain ⟨front, back, found⟩ : ∃ front back,
      world.store.instances.split? i.name = some (front, i, back) :=
    Directory.split_at_the_member distinct held
  have parsed : Instance.nameArgument manual ["instance", i.name] = .ok i.name :=
    names_an_instance.mpr rfl
  have entered : i.enter power = .ok { i with power } := by rw [Instance.enter, if_neg other]
  have updated : world.store.instances.update i.name (fun i => (i.enter power).map (i.id, ·)) =
      .ok (i.id, ⟨front ++ { i with power } :: back⟩) :=
    Directory.update_eq_ok_iff.mpr ⟨front, i, back, _, found, by rw [entered]; rfl, rfl⟩
  simp only [Instance.changing, parsed, updated, Change.apply]
  rw [Directory.adapt_at_the_place _ distinct found]

private theorem delete_of_held (distinct : world.store.instances.Distinct)
    (held : world.store.instances.contains name = true) :
    ∃ reply, Instance.delete.run setting world ["instance", name] =
      (.ok reply, (Change.delete name).apply setting world) := by
  obtain ⟨front, i, back, found⟩ := Directory.held_iff_split.mp held
  have parsed : Instance.nameArgument Instance.deleteManual ["instance", name] = .ok name :=
    names_an_instance.mpr rfl
  have removed : world.store.instances.remove name = .ok (i, ⟨front ++ back⟩) :=
    Directory.remove_eq_ok_iff.mpr ⟨front, back, found, rfl⟩
  simp only [Instance.delete, parsed, removed, Change.apply, Directory.without_at_the_place distinct found]
  exact ⟨_, rfl⟩

private theorem keygen_of_free {name? : Option String}
    (named : Key.newName world.store.keys name? = .ok name)
    (free : world.store.keys.contains name = false) :
    Key.keygen.run setting world name?.toList =
      (.ok (.text (Key.announcement setting.config
          (.generate name (world.ids.publicKey setting.config.identity).1 setting.clock))),
        (Change.generate name).apply setting world) := by
  have parsed : Key.keygenManual.optionalArgument name?.toList = .ok name? :=
    takes_optional_argument.mpr rfl
  have added := Directory.add_of_free (Key.generate name
    (world.ids.publicKey setting.config.identity).1 setting.clock) free
  simp only [Key.keygen, parsed, Except.bind, named, free, added, Bool.false_eq_true, if_false]
  rfl

private theorem mark_of_held (distinct : world.store.keys.Distinct)
    (held : world.store.keys.contains name = true) :
    ∃ reply, Key.add.run setting world [name] =
      (.ok reply, (Change.mark name).apply setting world) := by
  obtain ⟨front, key, back, found⟩ := Directory.held_iff_split.mp held
  have parsed : Key.addManual.oneArgument [name] = .ok name := takes_one_argument.mpr rfl
  have updated : world.store.keys.update name (fun key => .ok key.markAdded) =
      .ok (!key.added, ⟨front ++ { key with added := true } :: back⟩) :=
    Directory.update_eq_ok_iff.mpr ⟨front, key, back, _, found, rfl, rfl⟩
  simp only [Key.add, parsed, updated, Change.apply, Directory.adapt_at_the_place _ distinct found]
  exact ⟨_, rfl⟩

private theorem discard_of_held (distinct : world.store.keys.Distinct)
    (held : world.store.keys.contains name = true) :
    ∃ reply, Key.remove.run setting world [name] =
      (.ok reply, (Change.discard name).apply setting world) := by
  obtain ⟨front, key, back, found⟩ := Directory.held_iff_split.mp held
  have parsed : Key.removeManual.oneArgument [name] = .ok name := takes_one_argument.mpr rfl
  have removed : world.store.keys.remove name = .ok (key, ⟨front ++ back⟩) :=
    Directory.remove_eq_ok_iff.mpr ⟨front, back, found, rfl⟩
  simp only [Key.remove, parsed, removed, Change.apply, Directory.without_at_the_place distinct found]
  exact ⟨_, rfl⟩

private theorem git_of_free {url : String} {name? : Option String}
    (named : Repository.directoryFor url name? = .ok name) (clear : Home.isFixed name = false)
    (free : world.store.repositories.contains name = false)
    (idle : world.clones.isPending name = false) :
    Repository.git.run setting world ("clone" :: url :: name?.toList) =
      (.ok (.text ("\n".intercalate (Repository.cloneLines url name setting.config.cloneDelay))),
        (Change.clone url name).apply setting world) := by
  have parsed : Repository.manual.oneArgumentOrTwo (url :: name?.toList) = .ok (url, name?) :=
    takes_one_argument_or_two.mpr rfl
  show Repository.runClone setting world (url :: name?.toList) = _
  simp only [Repository.runClone, parsed, named, clear, Bool.false_eq_true, if_false]
  rw [clone_of_free free idle]
  rfl

end Made

/-- A line that asks for a change gets it: the command replies, and the world after it is the one with the
change made. There is one case for each kind of change. -/
theorem asked_change_is_made (setting : Setting) (distinct : DistinctNames world)
    (asks : Asks world words change) :
    ∃ reply, Terminal.registry.run setting world words = (.ok reply, change.apply setting world) := by
  have by_command : ∀ command ∈ Terminal.commands, ∀ arguments outcome,
      command.run setting world arguments = outcome →
      Terminal.registry.run setting world ⟨command.name, arguments⟩ = outcome :=
    fun command member arguments outcome ran =>
      (run_by_the_command setting world arguments member).trans ran
  cases asks with
  | create name type free =>
    exact ⟨_, by_command Instance.create (by simp [Terminal.commands, Instance.commands]) _ _
      (create_of_free type free)⟩
  | power power i held other =>
    cases power with
    | running =>
      exact ⟨_, by_command Instance.startCommand (by simp [Terminal.commands, Instance.commands]) _ _
        (changing_of_held distinct.instances held other)⟩
    | stopped =>
      exact ⟨_, by_command Instance.stopCommand (by simp [Terminal.commands, Instance.commands]) _ _
        (changing_of_held distinct.instances held other)⟩
  | delete name held =>
    obtain ⟨reply, ran⟩ := delete_of_held distinct.instances held
    exact ⟨reply, by_command Instance.delete (by simp [Terminal.commands, Instance.commands]) _ _ ran⟩
  | generate name name? named free =>
    exact ⟨_, by_command Key.keygen (by simp [Terminal.commands, Key.commands]) _ _
      (keygen_of_free named free)⟩
  | mark name held =>
    obtain ⟨reply, ran⟩ := mark_of_held distinct.keys held
    exact ⟨reply, by_command Key.add (by simp [Terminal.commands, Key.commands]) _ _ ran⟩
  | discard name held =>
    obtain ⟨reply, ran⟩ := discard_of_held distinct.keys held
    exact ⟨reply, by_command Key.remove (by simp [Terminal.commands, Key.commands]) _ _ ran⟩
  | clone url name name? named clear free idle =>
    exact ⟨_, by_command Repository.git (by simp [Terminal.commands, Repository.commands]) _ _
      (git_of_free named clear free idle)⟩

/-- A line that is answered has made the change that it asks for, or it has only looked. -/
theorem effect_is_asked_for (distinct : DistinctNames world)
    (effect : LineEffect setting world words (result, next)) :
    (∃ change, Asks world words change ∧ next = change.apply setting world) ∨
      (next = world ∧ ∀ reply, result = .ok reply → words.changes = false) := by
  cases effect with
  | refused e => exact .inr ⟨rfl, fun reply answered => by cases answered⟩
  | look reply quiet => exact .inr ⟨rfl, fun _ _ => quiet⟩
  | create name type said free => exact .inl ⟨.create name type, said ▸ Asks.create name type free, rfl⟩
  | power reply name power front back i said found other =>
    obtain ⟨list, named, _⟩ := Directory.split?_eq_some_iff.mp found
    have held : i ∈ world.store.instances.toList := by simp [list]
    refine .inl ⟨.power name power, ?_, ?_⟩
    · rw [said, ← named]
      exact .power power i held other
    · simp only [Change.apply]
      rw [Directory.adapt_at_the_place _ distinct.instances found]
  | delete reply name front back i said found =>
    refine .inl ⟨.delete name, ?_, ?_⟩
    · rw [said]
      exact .delete name (Directory.held_iff_split.mpr ⟨front, i, back, found⟩)
    · simp only [Change.apply]
      rw [Directory.without_at_the_place distinct.instances found]
  | generate name name? key said named free made =>
    refine .inl ⟨.generate name, said ▸ Asks.generate name name? named free, ?_⟩
    rw [made]
    rfl
  | mark reply name front back key said found =>
    refine .inl ⟨.mark name, ?_, ?_⟩
    · rw [said]
      exact .mark name (Directory.held_iff_split.mpr ⟨front, key, back, found⟩)
    · simp only [Change.apply]
      rw [Directory.adapt_at_the_place _ distinct.keys found]
  | discard reply name front back key said found =>
    refine .inl ⟨.discard name, ?_, ?_⟩
    · rw [said]
      exact .discard name (Directory.held_iff_split.mpr ⟨front, key, back, found⟩)
    · simp only [Change.apply]
      rw [Directory.without_at_the_place distinct.keys found]
  | clone url name name? said named clear free idle =>
    exact .inl ⟨.clone url name, said ▸ Asks.clone url name name? named clear free idle, rfl⟩

/-- A line that asks for no change leaves the world as it was, whether it is refused or answers from what is
there. -/
theorem unasked_line_leaves_the_world (distinct : DistinctNames world)
    (unasked : ∀ change, ¬ Asks world words change) :
    (Terminal.registry.run setting world words).2 = world := by
  rcases effect_is_asked_for distinct (run_has_effect setting world words) with
    ⟨change, asks, _⟩ | ⟨same, _⟩
  · exact absurd asks (unasked change)
  · exact same

/-- What holds of the changes that a line asks for, and of the world if it asks for none, holds after the
line. -/
theorem line_by_cases {P : World → Prop} (distinct : DistinctNames world)
    (asked : ∀ change, Asks world words change → P (change.apply setting world))
    (unasked : (∀ change, ¬ Asks world words change) → P world) :
    P (Terminal.registry.run setting world words).2 := by
  by_cases some_asked : ∃ change, Asks world words change
  · obtain ⟨change, asks⟩ := some_asked
    obtain ⟨_, ran⟩ := asked_change_is_made setting distinct asks
    rw [ran]
    exact asked change asks
  · rw [unasked_line_leaves_the_world distinct (not_exists.mp some_asked)]
    exact unasked (not_exists.mp some_asked)

/-- Two worlds of which a line asks the same are related after the line as they are after each change. -/
theorem lines_by_cases {R : World → World → Prop} {setting' : Setting} {world' : World}
    (distinct : DistinctNames world) (distinct' : DistinctNames world')
    (alike : ∀ change, Asks world words change ↔ Asks world' words change)
    (asked : ∀ change, Asks world words change →
      R (change.apply setting world) (change.apply setting' world'))
    (start : R world world') :
    R (Terminal.registry.run setting world words).2 (Terminal.registry.run setting' world' words).2 := by
  refine line_by_cases (P := fun next => R next _) distinct ?_ ?_
  · intro change asks
    obtain ⟨_, ran⟩ := asked_change_is_made setting' distinct' ((alike change).mp asks)
    rw [ran]
    exact asked change asks
  · intro unasked
    rw [unasked_line_leaves_the_world distinct' fun change asks => unasked change ((alike change).mpr asks)]
    exact start

/-- Any change that a line can ask for is made under a free name or under a name that is held, so that names
stay distinct. -/
theorem change_keeps_names_distinct (distinct : DistinctNames world)
    (asks : Asks world words change) : DistinctNames (change.apply setting world) := by
  obtain ⟨instances, keys⟩ := distinct
  cases asks with
  | create name type free =>
    exact ⟨Directory.distinct_add instances (Directory.add_of_free (Instance.launch _ name type _) free), keys⟩
  | power power i held other => exact ⟨Directory.distinct_adapt instances fun _ => rfl, keys⟩
  | delete name held => exact ⟨Directory.distinct_without instances, keys⟩
  | generate name name? named free =>
    exact ⟨instances, Directory.distinct_add keys (Directory.add_of_free (Key.generate name _ _) free)⟩
  | mark name held => exact ⟨instances, Directory.distinct_adapt keys fun _ => rfl⟩
  | discard name held => exact ⟨instances, Directory.distinct_without keys⟩
  | clone url name name? named clear free idle => exact ⟨instances, keys⟩

/-- Names stay distinct whatever line is run. -/
theorem line_keeps_names_distinct (distinct : DistinctNames world)
    (effect : LineEffect setting world words (result, next)) : DistinctNames next := by
  rcases effect_is_asked_for distinct effect with ⟨change, asks, rfl⟩ | ⟨rfl, _⟩
  · exact change_keeps_names_distinct distinct asks
  · exact distinct

namespace Session

/-- The session has the commands of the terminal, and distinct names. -/
structure Ready (session : Session) : Prop where
  terminal : session.registry = Terminal.registry
  distinct : DistinctNames session.world

variable {session : Session} {input : Input}

/-- A new session has the commands of the terminal, and nothing is there that could share a name. -/
theorem start_is_ready (config : Config) (entropy : Random.Source) : (start config entropy).Ready :=
  ⟨rfl, List.nodup_nil, List.nodup_nil⟩

/-- The world that a line leaves is the one that its command makes of the world as the line finds it, which is
the one after the passing command. -/
theorem world_after_line (ready : session.Ready) (parsed : Line.parse input.line = some words) :
    (session.take input).world =
      (Terminal.registry.run ⟨session.config, input.clock⟩ session.found words).2 := by
  rw [(take_spec session input words parsed).2.2, ready.terminal]

theorem found_has_distinct_names (ready : session.Ready) : DistinctNames session.found :=
  ⟨ready.distinct.instances, ready.distinct.keys⟩

theorem take_is_ready (ready : session.Ready) : (session.take input).Ready := by
  refine ⟨(take_keeps_the_settings session input).1.trans ready.terminal, ?_⟩
  cases said : session.exchange? input with
  | none =>
    rw [take_of_blank session input (Option.map_eq_none_iff.mp said)]
    exact ready.distinct
  | some exchange =>
    have effect := exchange_has_effect session input ready.terminal said
    exact line_keeps_names_distinct (found_has_distinct_names ready) effect

theorem after_is_ready (ready : session.Ready) (inputs : List Input) : (session.after inputs).Ready := by
  induction inputs generalizing session with
  | nil => exact ready
  | cons input rest ih => exact ih (take_is_ready ready)

end Session

end CloudTerminal
