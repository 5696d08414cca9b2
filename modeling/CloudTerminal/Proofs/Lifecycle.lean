import CloudTerminal.Proofs.EntryHistory

/-!
The instances as their history tells them. A line that was carried out may tell that an instance was created,
brought into a power state or deleted (`Moment.Tells`). After every run the store holds just the instances
that survive these events, in the order of their creation, each in the power state that it was last brought
into, and the commands that start, stop and describe an instance answer accordingly
(`instances_follow_their_history`).
-/

namespace CloudTerminal

open EntryEvent

/-- Instances come in running, and are brought from one power state into another. -/
instance : Historic Instance Power where
  fresh i := { i with power := .running }
  apply power i := { i with power }
  name_fresh _ := rfl
  name_apply _ _ := rfl

/-- What can happen to an instance: it is created, powered or deleted. -/
abbrev InstanceEvent := EntryEvent Instance Power

/-- The words of the lines that tell something about the instances when they are carried out. -/
def tellingWords : List String := ["create", "start", "stop", "delete"]

/-- What a line that was carried out tells about the instances. The identifier is the one that the answer to the
creation shows. -/
inductive Moment.Tells : Moment → Option InstanceEvent → Prop where
  | created (clock name id : String) (type : InstanceType) :
    Tells ⟨clock, ⟨"create", ["instance", name, type.text]⟩,
      .ok (.text (Instance.confirmation type name id))⟩ (some (.entered (.launch id name type clock)))
  | powered (clock name : String) (power : Power) (reply : Reply) :
    Tells ⟨clock, ⟨power.verb, ["instance", name]⟩, .ok reply⟩ (some (.changed name power))
  | deleted (clock name : String) (reply : Reply) :
    Tells ⟨clock, ⟨"delete", ["instance", name]⟩, .ok reply⟩ (some (.left name))
  | refused (clock : String) (words : Line) (e : Error) : Tells ⟨clock, words, .error e⟩ none
  | other (clock : String) (words : Line) (reply : Reply)
      (command : words.command ∉ tellingWords) :
    Tells ⟨clock, words, .ok reply⟩ none

/-- What a creation shows tells the identifier of the instance. -/
theorem confirmation_shows_the_identifier {type : InstanceType} {name id id' : String}
    (same : Instance.confirmation type name id = Instance.confirmation type name id') : id = id' := by
  have texts := congrArg String.toList same
  simp only [Instance.confirmation, String.toList_append, List.append_cancel_left_eq,
    List.append_cancel_right_eq] at texts
  exact String.toList_injective texts

theorem type_of_its_text {type other : InstanceType} (same : type.text = other.text) : type = other := by
  have found := InstanceType.ofText?_text type
  rw [same, InstanceType.ofText?_text] at found
  exact (Option.some.inj found).symm

theorem verb_tells (power : Power) : power.verb ∈ tellingWords := by cases power <;> decide

theorem verb_is_not_delete (power : Power) : power.verb ≠ "delete" := by cases power <;> decide

/-- A moment tells one thing. -/
theorem tells_one_thing {moment moment' : Moment} {told told' : Option InstanceEvent}
    (tells : moment.Tells told) (tells' : moment'.Tells told') (same : moment = moment') : told = told' := by
  have command : moment.words.command = moment'.words.command := by rw [same]
  cases tells with
  | created clock name id type =>
    cases tells' with
    | created clock' name' id' type' =>
      simp only [Moment.mk.injEq, Line.mk.injEq, List.cons.injEq, Except.ok.injEq, Reply.text.injEq,
        true_and, and_true] at same
      obtain ⟨rfl, ⟨rfl, text⟩, shown⟩ := same
      cases type_of_its_text text
      rw [confirmation_shows_the_identifier shown]
    | other clock' words reply silent => exact absurd (command ▸ by simp [tellingWords]) silent
    | _ => simp at same
  | powered clock name power reply =>
    cases tells' with
    | powered clock' name' power' reply' =>
      simp only [Moment.mk.injEq, Line.mk.injEq, List.cons.injEq, true_and, and_true] at same
      obtain ⟨_, ⟨verb, rfl⟩, _⟩ := same
      rw [power_of_its_verb verb]
    | deleted clock' name' reply' => exact absurd command (verb_is_not_delete power)
    | other clock' words reply' silent => exact absurd (command ▸ verb_tells power) silent
    | _ => simp at same
  | deleted clock name reply =>
    cases tells' with
    | powered clock' name' power reply' => exact absurd command.symm (verb_is_not_delete power)
    | deleted clock' name' reply' => simp_all
    | other clock' words reply' silent => exact absurd (command ▸ by simp [tellingWords]) silent
    | _ => simp at same
  | refused clock words e =>
    cases tells' with
    | refused clock' words' e' => rfl
    | _ => simp at same
  | other clock words reply silent =>
    cases tells' with
    | created clock' name' id type => exact absurd (command ▸ by simp [tellingWords]) silent
    | powered clock' name' power reply' => exact absurd (command ▸ verb_tells power) silent
    | deleted clock' name' reply' => exact absurd (command ▸ by simp [tellingWords]) silent
    | _ => rfl

theorem chronicle_tells_one_story {chronicle : List Moment} {events events' : List (Option InstanceEvent)}
    (tells : List.Forall₂ Moment.Tells chronicle events) (tells' : List.Forall₂ Moment.Tells chronicle events') :
    events = events' := by
  have unique : Relator.RightUnique Moment.Tells := fun _ _ _ told told' => tells_one_thing told told' rfl
  exact List.right_unique_forall₂' unique tells tells'

variable {setting : Setting} {world next : World} {words : Line} {result : Except Error Reply}

/-- What a line tells about the instances is what it has made of them. -/
theorem line_tells (distinct : DistinctNames world)
    (effect : LineEffect setting world words (result, next)) :
    ∃ told, Moment.Tells ⟨setting.clock, words, result⟩ told ∧
      next.store.instances.toList = told.elim world.store.instances.toList
        (·.act world.store.instances.toList) := by
  have elsewhere : ∀ word ∈ ["ssh-keygen", "ssh-add", "ssh-remove", "git"],
      word ∉ tellingWords := by decide
  cases effect with
  | refused e => exact ⟨none, .refused _ _ e, rfl⟩
  | look reply quiet =>
    refine ⟨none, .other _ _ reply ?_, rfl⟩
    intro changing
    simp only [tellingWords, List.mem_cons, List.not_mem_nil, or_false] at changing
    rcases changing with command | command | command | command <;>
      simp [Line.changes, command] at quiet
  | create name type said free =>
    subst said
    refine ⟨_, .created _ name _ type, ?_⟩
    exact (act_under_a_free_name (Instance.launch _ name type setting.clock) free).symm
  | power reply name power front back i said found other =>
    subst said
    refine ⟨_, .powered _ name power reply, ?_⟩
    have place := Directory.adapt_at_the_place (fun i : Instance => { i with power }) distinct.instances found
    exact (congrArg Directory.toList place).symm
  | delete reply name front back i said found =>
    subst said
    refine ⟨_, .deleted _ name reply, ?_⟩
    exact (congrArg Directory.toList (Directory.without_at_the_place distinct.instances found)).symm
  | generate name name? key said named free made =>
    subst said
    exact ⟨none, .other _ _ _ (elsewhere _ (by simp)), rfl⟩
  | mark reply name front back key said found =>
    subst said
    exact ⟨none, .other _ _ _ (elsewhere _ (by simp)), rfl⟩
  | discard reply name front back key said found =>
    subst said
    exact ⟨none, .other _ _ _ (elsewhere _ (by simp)), rfl⟩
  | clone url name name? said named clear free idle =>
    subst said
    exact ⟨none, .other _ _ _ (elsewhere _ (by simp)), rfl⟩

/-- After every run that starts without instances, the instances are the survivors of the story that its
moments tell. -/
theorem run_tells_its_instances (session : Session) (ready : session.Ready)
    (fresh : session.world.store.instances = .empty) (inputs : List Input) :
    ∃ events, List.Forall₂ Moment.Tells (session.chronicle inputs) events ∧
      (session.after inputs).world.store.instances.toList = survivors events.reduceOption :=
  session.run_tells_a_story ready (fun world => world.store.instances.toList) (fun _ => rfl)
    (fun _ _ _ _ _ distinct effect => line_tells distinct effect) (congrArg Directory.toList fresh) inputs

section Answers

variable {name : String}

/-- An instance can be brought into a power state exactly when it is there and not in that state. -/
theorem power_changes_iff_other (setting : Setting) (power : Power) (distinct : DistinctNames world) :
    (∃ reply, (Terminal.registry.run setting world ⟨power.verb, ["instance", name]⟩).1 = .ok reply) ↔
      ∃ i ∈ world.store.instances.toList, i.name = name ∧ i.power ≠ power := by
  constructor
  · rintro ⟨reply, answered⟩
    have effect := run_has_effect setting world ⟨power.verb, ["instance", name]⟩
    rcases effect_is_asked_for distinct effect with ⟨change, asks, _⟩ | ⟨_, quiet⟩
    · generalize said : (⟨power.verb, ["instance", name]⟩ : Line) = words at asks
      cases asks with
      | power power' i held other =>
        simp only [Line.mk.injEq, List.cons.injEq, true_and, and_true] at said
        obtain ⟨verb, rfl⟩ := said
        cases power_of_its_verb verb
        exact ⟨i, held, rfl, other⟩
      | delete name held => exact absurd (congrArg Line.command said) (verb_is_not_delete power)
      | generate name name? => cases name? <;> simp at said
      | _ => simp at said
    · have loud : (⟨power.verb, ["instance", name]⟩ : Line).changes = true := by cases power <;> rfl
      rw [quiet reply answered] at loud
      cases loud
  · rintro ⟨i, held, rfl, other⟩
    obtain ⟨reply, ran⟩ := asked_change_is_made setting distinct (.power power i held other)
    exact ⟨reply, congrArg Prod.fst ran⟩

theorem described_iff_held (setting : Setting) (distinct : DistinctNames world) (reply : Reply) :
    (Terminal.registry.run setting world ⟨"describe", ["instance", name]⟩).1 = .ok reply ↔
      ∃ i ∈ world.store.instances.toList, i.name = name ∧ reply = .text (Instance.description i) := by
  have member : Instance.describe ∈ Terminal.commands := by simp [Terminal.commands, Instance.commands]
  have parsed : Instance.nameArgument Instance.describeManual ["instance", name] = .ok name :=
    names_an_instance.mpr rfl
  have ran := run_by_the_command setting world ["instance", name] member
  have shown : (Terminal.registry.run setting world ⟨"describe", ["instance", name]⟩).1 =
      (world.store.instances.find name).map fun i => .text (Instance.description i) := by
    refine (congrArg Prod.fst ran).trans ?_
    simp only [Instance.describe, Command.reading, parsed]
  rw [shown, Directory.find]
  constructor
  · intro answered
    cases held : world.store.instances.get? name with
    | none => simp [held, Except.map] at answered
    | some i =>
      obtain ⟨present, rfl⟩ := (Directory.lookup_finds_exactly_the_member distinct.instances).mp held
      rw [held] at answered
      exact ⟨i, present, rfl, (Except.ok.inj answered).symm⟩
  · rintro ⟨i, present, rfl, rfl⟩
    have held := (Directory.lookup_finds_exactly_the_member distinct.instances).mpr ⟨present, rfl⟩
    rw [show world.store.instances.get? i.name = some i from held]
    rfl

end Answers

/-- What happens in a run tells one story of events, and after the run there are just the instances that the
events leave. These can be started when they are stopped and stopped when they are running, and their description
shows what the events have made of them; there is nothing to start, stop or describe under other names. -/
theorem instances_follow_their_history (config : Config) (entropy : Random.Source) (inputs : List Input) :
    let start := Session.start config entropy
    let session := start.after inputs
    let instances := session.world.store.instances.toList
    let answer := fun clock words => (session.registry.run ⟨session.config, clock⟩ session.found words).1
    (∃ events, List.Forall₂ Moment.Tells (start.chronicle inputs) events ∧
      (∀ others, List.Forall₂ Moment.Tells (start.chronicle inputs) others → others = events) ∧
      instances = survivors events.reduceOption) ∧
    (instances.map Instance.name).Nodup ∧
    ∀ clock name,
      ((∃ reply, answer clock ⟨"start", ["instance", name]⟩ = .ok reply) ↔
        ∃ i ∈ instances, i.name = name ∧ i.power = .stopped) ∧
      ((∃ reply, answer clock ⟨"stop", ["instance", name]⟩ = .ok reply) ↔
        ∃ i ∈ instances, i.name = name ∧ i.power = .running) ∧
      ∀ reply, answer clock ⟨"describe", ["instance", name]⟩ = .ok reply ↔
        ∃ i ∈ instances, i.name = name ∧
          reply = .text ("\n".intercalate [s!"Instance: {i.name}", s!"  ID:      {i.id}",
            s!"  Name:    {i.name}", s!"  Type:    {i.type.text}", s!"  Status:  {i.power.text}",
            s!"  Created: {i.created}"]) := by
  intro start session instances answer
  have ready : session.Ready := Session.after_is_ready (Session.start_is_ready config entropy) inputs
  have distinct : DistinctNames session.found := Session.found_has_distinct_names ready
  have answers : ∀ clock words,
      answer clock words = (Terminal.registry.run ⟨session.config, clock⟩ session.found words).1 := by
    intro clock words
    simp only [answer, ready.terminal]
  obtain ⟨events, tells, left⟩ :=
    run_tells_its_instances start (Session.start_is_ready config entropy) rfl inputs
  refine ⟨⟨events, tells, fun others told => chronicle_tells_one_story told tells, left⟩,
    ready.distinct.instances, ?_⟩
  have down : ∀ power : Power, power ≠ .running ↔ power = .stopped := by
    intro power
    cases power <;> decide
  have up : ∀ power : Power, power ≠ .stopped ↔ power = .running := by
    intro power
    cases power <;> decide
  intro clock name
  have starts := @power_changes_iff_other session.found name ⟨session.config, clock⟩ .running distinct
  have stops := @power_changes_iff_other session.found name ⟨session.config, clock⟩ .stopped distinct
  simp only [down] at starts
  simp only [up] at stops
  refine ⟨?_, ?_, fun reply => ?_⟩
  · rw [answers]
    exact starts
  · rw [answers]
    exact stops
  · rw [answers]
    exact described_iff_held ⟨session.config, clock⟩ distinct reply

end CloudTerminal
