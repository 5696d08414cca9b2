import CloudTerminal.Proofs.Change
import CloudTerminal.Proofs.Logging

/-!
What the settings, the random source and the clock cannot reach. A line decides by names, types, power states and
waiting clones, which are the views of the three kinds of resources (`World.view`). The view of a kind after a line
depends on its view before and on nothing else but the delay of clones (`line_acts_on_the_view`), and only lines of
the kind change it (`line_outside_keeps_the_view`). So two sessions that differ in who works where, in the
seed and in the times go in step (`identity_randomness_and_time_do_not_interfere`).
-/

namespace CloudTerminal

/-- The names, types and power states of the instances, in order. -/
def Store.roster (store : Store) : List (String × InstanceType × Power) :=
  store.instances.toList.map fun i => (i.name, i.type, i.power)

/-- The names of the keys and the agent's marks, in order. -/
def Store.keyring (store : Store) : List (String × Bool) :=
  store.keys.toList.map fun key => (key.name, key.added)

/-- What lines about a kind of resources go by. -/
def Family.View : Family → Type
  | instances => List (String × InstanceType × Power)
  | keys => List (String × Bool)
  | repositories => Directory Repository × CloneQueue

/-- What a world shows to the lines about a kind of resources. -/
def World.view (world : World) : (family : Family) → family.View
  | .instances => world.store.roster
  | .keys => world.store.keyring
  | .repositories => (world.store.repositories, world.clones)

variable {setting setting' : Setting} {world world' : World} {words : Line} {change : Change}
  {family : Family}

section Names

theorem instances_held_of_view (view : world.view .instances = world'.view .instances) (name : String) :
    world.store.instances.contains name = world'.store.instances.contains name := by
  refine Directory.contains_of_same_names ?_ name
  have names := congrArg (List.map Prod.fst) (show world.store.roster = world'.store.roster from view)
  rw [Store.roster, Store.roster, List.map_map, List.map_map] at names
  exact names

theorem keys_held_of_view (view : world.view .keys = world'.view .keys) (name : String) :
    world.store.keys.contains name = world'.store.keys.contains name := by
  refine Directory.contains_of_same_names ?_ name
  have names := congrArg (List.map Prod.fst) (show world.store.keyring = world'.store.keyring from view)
  rw [Store.keyring, Store.keyring, List.map_map, List.map_map] at names
  exact names

/-- The name that a new key gets depends on the names of the others. -/
theorem new_name_of_view (view : world.view .keys = world'.view .keys) (name? : Option String) :
    Key.newName world.store.keys name? = Key.newName world'.store.keys name? := by
  cases name? with
  | none => exact congrArg Except.ok (Key.freeName_congr (funext (keys_held_of_view view)))
  | some name => rfl

end Names

/-- What a line asks for depends on the view of the kind that it is about. -/
theorem asks_of_view (view : world.view change.family = world'.view change.family)
    (asks : Asks world words change) : Asks world' words change := by
  cases asks with
  | create name type free => exact .create name type (instances_held_of_view view name ▸ free)
  | power power i held other =>
    have listed : (i.name, i.type, i.power) ∈ world'.store.roster := by
      rw [← show world.store.roster = world'.store.roster from view]
      exact List.mem_map.mpr ⟨i, held, rfl⟩
    obtain ⟨i', held', same⟩ := List.mem_map.mp listed
    simp only [Prod.mk.injEq] at same
    obtain ⟨named, _, powered⟩ := same
    rw [← named]
    exact .power power i' held' (powered ▸ other)
  | delete name held => exact .delete name (instances_held_of_view view name ▸ held)
  | generate name name? named free =>
    exact .generate name name? (new_name_of_view view name? ▸ named) (keys_held_of_view view name ▸ free)
  | mark name held => exact .mark name (keys_held_of_view view name ▸ held)
  | discard name held => exact .discard name (keys_held_of_view view name ▸ held)
  | clone url name name? named clear free idle =>
    obtain ⟨repositories, clones⟩ := Prod.mk.inj (show (_, _) = (_, _) from view)
    exact .clone url name name? named clear (repositories ▸ free) (clones ▸ idle)

/-- A change is seen only in the kind of resource that it is made to. -/
theorem change_keeps_other_views (other : change.family ≠ family) :
    (change.apply setting world).view family = world.view family := by
  cases change <;> cases family <;> first | rfl | exact absurd rfl other

/-- What a change makes of a view depends on that view and the delay of clones. -/
theorem change_acts_on_the_view (delay : setting.config.cloneDelay = setting'.config.cloneDelay)
    (view : world.view change.family = world'.view change.family) :
    (change.apply setting world).view change.family =
      (change.apply setting' world').view change.family := by
  cases change with
  | create name type =>
    have roster : world.store.roster = world'.store.roster := view
    show Store.roster _ = Store.roster _
    simp only [Store.roster, Change.apply, List.map_append, List.map_cons, List.map_nil,
      Instance.launch] at roster ⊢
    rw [roster]
  | power name power =>
    have roster : world.store.roster = world'.store.roster := view
    have adapted : ∀ (setting : Setting) (world : World),
        ((Change.power name power).apply setting world).store.roster = world.store.roster.map fun seen =>
          if seen.1 = name then (seen.1, seen.2.1, power) else seen :=
      fun _ _ => Directory.view_of_adapted (fun _ => rfl) fun _ => rfl
    show Store.roster _ = Store.roster _
    rw [adapted, adapted, roster]
  | delete name =>
    have roster : world.store.roster = world'.store.roster := view
    have remaining : ∀ (setting : Setting) (world : World),
        ((Change.delete name).apply setting world).store.roster =
          world.store.roster.filter (·.1 != name) :=
      fun _ _ => Directory.view_of_remaining fun _ => rfl
    show Store.roster _ = Store.roster _
    rw [remaining, remaining, roster]
  | generate name =>
    have keyring : world.store.keyring = world'.store.keyring := view
    show Store.keyring _ = Store.keyring _
    simp only [Store.keyring, Change.apply, List.map_append, List.map_cons, List.map_nil,
      Key.generate] at keyring ⊢
    rw [keyring]
  | mark name =>
    have keyring : world.store.keyring = world'.store.keyring := view
    have adapted : ∀ (setting : Setting) (world : World),
        ((Change.mark name).apply setting world).store.keyring = world.store.keyring.map fun seen =>
          if seen.1 = name then (seen.1, true) else seen :=
      fun _ _ => Directory.view_of_adapted (fun _ => rfl) fun _ => rfl
    show Store.keyring _ = Store.keyring _
    rw [adapted, adapted, keyring]
  | discard name =>
    have keyring : world.store.keyring = world'.store.keyring := view
    have remaining : ∀ (setting : Setting) (world : World),
        ((Change.discard name).apply setting world).store.keyring =
          world.store.keyring.filter (·.1 != name) :=
      fun _ _ => Directory.view_of_remaining fun _ => rfl
    show Store.keyring _ = Store.keyring _
    rw [remaining, remaining, keyring]
  | clone url name =>
    obtain ⟨repositories, clones⟩ := Prod.mk.inj (show (_, _) = (_, _) from view)
    show (_, _) = (_, _)
    simp only [Change.apply, repositories, clones, delay]

/-- Lines about other kinds of resources, and lines about none, keep the view. -/
theorem line_outside_keeps_the_view (distinct : DistinctNames world) (outside : words.isOf family = false) :
    (Terminal.registry.run setting world words).2.view family = world.view family := by
  refine line_by_cases (P := fun next => next.view family = world.view family) distinct ?_ fun _ => rfl
  intro change asks
  refine change_keeps_other_views ?_
  rintro rfl
  rw [asks_in_its_family asks] at outside
  cases outside

/-- A line about a kind of resources asks for the same in two worlds that show the same of that kind. -/
theorem asked_alike (inside : words.isOf family = true) (view : world.view family = world'.view family) :
    Asks world words change ↔ Asks world' words change := by
  constructor
  · intro asks
    obtain rfl := families_are_disjoint (asks_in_its_family asks) inside
    exact asks_of_view view asks
  · intro asks
    obtain rfl := families_are_disjoint (asks_in_its_family asks) inside
    exact asks_of_view view.symm asks

/-- What a line makes of a view depends on that view and the delay of clones. -/
theorem line_acts_on_the_view (distinct : DistinctNames world) (distinct' : DistinctNames world')
    (delay : setting.config.cloneDelay = setting'.config.cloneDelay)
    (view : world.view family = world'.view family) :
    (Terminal.registry.run setting world words).2.view family =
      (Terminal.registry.run setting' world' words).2.view family := by
  cases inside : words.isOf family with
  | false =>
    rw [line_outside_keeps_the_view distinct inside, line_outside_keeps_the_view distinct' inside, view]
  | true =>
    refine lines_by_cases (R := fun next next' => next.view family = next'.view family) distinct distinct'
      (fun _ => asked_alike inside view) ?_ view
    intro change asks
    obtain rfl := families_are_disjoint (asks_in_its_family asks) inside
    exact change_acts_on_the_view delay view

/-- Only the view of the repositories is moved by the passing of a command. -/
theorem tick_keeps_the_view (other : family ≠ .repositories) :
    world.tick.2.view family = world.view family := by
  cases family with
  | repositories => exact absurd rfl other
  | _ => rfl

/-- A passing command makes the same of two worlds that look alike. -/
theorem tick_acts_on_the_view (view : world.view family = world'.view family) :
    world.tick.2.view family = world'.tick.2.view family := by
  cases family with
  | repositories =>
    obtain ⟨repositories, clones⟩ := Prod.mk.inj (show (_, _) = (_, _) from view)
    show (_, _) = (_, _)
    simp only [World.tick, repositories, clones]
  | _ => exact view

namespace Session

variable {left right : Session} {input input' : Input}

/-- Two sessions show the same to lines about a kind of resources. -/
structure AlikeIn (family : Family) (left right : Session) : Prop where
  readyLeft : left.Ready
  readyRight : right.Ready
  delay : left.config.cloneDelay = right.config.cloneDelay
  view : left.world.view family = right.world.view family

/-- The same line, at whatever times, keeps two sessions alike. -/
theorem AlikeIn.take (alike : AlikeIn family left right) (same : input.line = input'.line) :
    AlikeIn family (left.take input) (right.take input') := by
  obtain ⟨readyLeft, readyRight, delay, view⟩ := alike
  have delays : (left.take input).config.cloneDelay = (right.take input').config.cloneDelay := by
    rw [(take_keeps_the_settings left input).2, (take_keeps_the_settings right input').2, delay]
  refine ⟨take_is_ready readyLeft, take_is_ready readyRight, delays, ?_⟩
  cases parsed : Line.parse input.line with
  | none => rw [take_of_blank left input parsed, take_of_blank right input' (same ▸ parsed), view]
  | some words =>
    rw [world_after_line readyLeft parsed, world_after_line readyRight (same ▸ parsed)]
    exact line_acts_on_the_view (found_has_distinct_names readyLeft) (found_has_distinct_names readyRight)
      delay (tick_acts_on_the_view view)

def loggedLines (session : Session) : List String := session.log.entries.map (·.input)

/-- Which lines are logged depends on the lines alone. -/
theorem logged_lines_after (ready : left.Ready) :
    (left.take input).loggedLines =
      match Line.parse input.line with
      | none => left.loggedLines
      | some words => if words = .clear then [] else left.loggedLines ++ [input.line] := by
  cases parsed : Line.parse input.line with
  | none => rw [take_of_blank left input parsed]
  | some words =>
    by_cases clear : words = .clear
    · subst clear
      have emptied := (clear_empties_the_log ready.terminal input.clock parsed).2
      simp [loggedLines, take, emptied]
    · obtain ⟨output, _, logged⟩ := other_line_is_logged ready.terminal input.clock parsed clear
      simp [loggedLines, take, logged, clear]

/-- Two sessions show the same of all resources, and have logged the same lines. -/
structure Alike (left right : Session) : Prop where
  views : ∀ family, AlikeIn family left right
  logged : left.loggedLines = right.loggedLines

/-- Two sessions that look alike in all kinds do so after the same line, whatever settings, clocks and
identifiers they have. -/
theorem Alike.take (alike : Alike left right) (same : input.line = input'.line) :
    Alike (left.take input) (right.take input') := by
  obtain ⟨views, logged⟩ := alike
  refine ⟨fun family => (views family).take same, ?_⟩
  rw [logged_lines_after (views .instances).readyLeft, logged_lines_after (views .instances).readyRight,
    same, logged]

/-- Whether a line is logged depends on the line alone. -/
theorem entries_appear_alike (ready : left.Ready) (ready' : right.Ready) (clock clock' line : String) :
    (left.execute clock line).1.isSome = (right.execute clock' line).1.isSome := by
  have absent := entry_unless_blank_or_clear ready.terminal clock line
  have absent' := entry_unless_blank_or_clear ready'.terminal clock' line
  rw [Bool.eq_iff_iff, ← not_iff_not]
  simp only [Bool.not_eq_true, Option.isSome_eq_false_iff, Option.isNone_iff_eq_none]
  exact absent.trans absent'.symm

end Session

/-- Two sessions whose settings agree in the delay of clones go in step on the same lines, whoever works where,
whatever the seeds, the lengths of pings and the times are. They hold the same instances by name, type and
power state, the same keys by name and mark, the same repositories and waiting clones; they have
logged the same lines, and the next line gives an entry in one exactly if it does so in the other. -/
theorem identity_randomness_and_time_do_not_interfere (left right : Config)
    (delay : left.cloneDelay = right.cloneDelay) (entropy entropy' : Random.Source) (times times' : Nat → String)
    (lines : List String) :
    let one := (Session.start left entropy).after (Input.timed times lines)
    let other := (Session.start right entropy').after (Input.timed times' lines)
    one.world.store.instances.toList.map (fun i => (i.name, i.type, i.power)) =
        other.world.store.instances.toList.map (fun i => (i.name, i.type, i.power)) ∧
      one.world.store.keys.toList.map (fun key => (key.name, key.added)) =
        other.world.store.keys.toList.map (fun key => (key.name, key.added)) ∧
      one.world.store.repositories = other.world.store.repositories ∧
      one.world.clones = other.world.clones ∧
      one.log.entries.map (·.input) = other.log.entries.map (·.input) ∧
      ∀ clock clock' line, (one.execute clock line).1.isSome = (other.execute clock' line).1.isSome := by
  intro one other
  have start : (Session.start left entropy).Alike (Session.start right entropy') := by
    refine ⟨fun family => ⟨Session.start_is_ready left entropy, Session.start_is_ready right entropy',
      delay, ?_⟩, rfl⟩
    cases family with
    | instances => exact (rfl : ([] : List (String × InstanceType × Power)) = [])
    | keys => exact (rfl : ([] : List (String × Bool)) = [])
    | repositories => exact (rfl : (({} : Directory Repository), ({} : CloneQueue)) = ({}, {}))
  have alike : one.Alike other :=
    Session.runs_stay_related (R := Session.Alike) (fun _ _ _ _ same alike => alike.take same)
      (timed_lines_agree times times' lines) start
  obtain ⟨repositories, clones⟩ := Prod.mk.inj (show (_, _) = (_, _) from (alike.views .repositories).view)
  exact ⟨(alike.views .instances).view, (alike.views .keys).view, repositories, clones, alike.logged,
    Session.entries_appear_alike (alike.views .keys).readyLeft (alike.views .keys).readyRight⟩

/-- Two users on different hosts, with different seeds and clocks, who create, generate, clone and clear. -/
theorem two_users_go_in_step :
    let left : Config := { user := "ann", hostname := "north", seed := some 1, cloneDelay := 1 }
    let right : Config := { user := "bob", home := "/b", seed := some 2, cloneDelay := 1, pingCount := 9 }
    let lines := ["create instance web compute", "ssh-keygen", "git clone https://h/app", "clear", "ls /b"]
    let one := (Session.start left 0).after (Input.timed (fun _ => "08:00:00") lines)
    let other := (Session.start right 5).after (Input.timed (fun n => s!"{n}") lines)
    left.cloneDelay = right.cloneDelay ∧
      one.world.store.instances.toList.map (fun i => (i.name, i.type, i.power)) =
        other.world.store.instances.toList.map (fun i => (i.name, i.type, i.power)) ∧
      one.world.store.repositories = other.world.store.repositories ∧
      one.log.entries.map (·.input) = other.log.entries.map (·.input) := by
  intro left right lines
  have step := identity_randomness_and_time_do_not_interfere left right rfl 0 5 (fun _ => "08:00:00")
    (fun n => s!"{n}") lines
  dsimp only at step ⊢
  exact ⟨rfl, step.1, step.2.2.1, step.2.2.2.2.1⟩

end CloudTerminal
