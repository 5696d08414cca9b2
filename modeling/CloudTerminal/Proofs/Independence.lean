import CloudTerminal.Proofs.Noninterference

/-!
The three kinds of resources develop on their own. What becomes of the instances or the keys does not depend on the
lines about anything else: a run leaves them as the run of their own lines alone does. Identifiers and keys
come from one source, so the lines about both kinds together determine these as well (`World.holdings`). The
repositories are also moved by every command that passes, whatever it is, and by nothing else that
another line does (`kinds_of_resources_are_independent`).
-/

namespace CloudTerminal

/-- Whether the line of an input names a command about a kind of resources. -/
def Input.isOf (input : Input) (family : Family) : Bool :=
  (Line.parse input.line).any (·.isOf family)

/-- Whether a line is about instances or keys. -/
def Line.concernsHoldings (words : Line) : Bool := words.isOf .instances || words.isOf .keys

/-- Whether the line of an input is about instances or keys. -/
def Input.concernsHoldings (input : Input) : Bool := input.isOf .instances || input.isOf .keys

/-- The instances and the keys, with the source of their identifiers and key texts. -/
def World.holdings (world : World) : Directory Instance × Directory Key × IdSource :=
  (world.store.instances, world.store.keys, world.ids)

variable {setting : Setting} {world world' : World} {words : Line} {change : Change} {family : Family}

section Holdings

theorem holdings_show_the_views (other : family ≠ .repositories)
    (holdings : world.holdings = world'.holdings) : world.view family = world'.view family := by
  simp only [World.holdings, Prod.mk.injEq] at holdings
  obtain ⟨instances, keys, _⟩ := holdings
  cases family with
  | instances => exact congrArg (fun d : Directory Instance => d.toList.map _) instances
  | keys => exact congrArg (fun d : Directory Key => d.toList.map _) keys
  | repositories => exact absurd rfl other

/-- What a change makes of instances and keys depends on these only, also in the identifiers that it draws. -/
theorem change_acts_on_the_holdings (other : change.family ≠ .repositories)
    (holdings : world.holdings = world'.holdings) :
    (change.apply setting world).holdings = (change.apply setting world').holdings := by
  simp only [World.holdings, Prod.mk.injEq] at holdings
  obtain ⟨instances, keys, ids⟩ := holdings
  cases change with
  | clone url name => exact absurd rfl other
  | _ => simp only [World.holdings, Change.apply, instances, keys, ids]

theorem line_outside_keeps_the_holdings (distinct : DistinctNames world)
    (outside : words.concernsHoldings = false) :
    (Terminal.registry.run setting world words).2.holdings = world.holdings := by
  refine line_by_cases (P := fun next => next.holdings = world.holdings) distinct ?_ fun _ => rfl
  intro change asks
  have family := asks_in_its_family asks
  cases change with
  | clone url name => rfl
  | _ => simp_all [Line.concernsHoldings, Change.family]

/-- What a line about instances and keys makes of them does not depend on repositories, jobs or the log. -/
theorem line_acts_on_the_holdings (distinct : DistinctNames world) (distinct' : DistinctNames world')
    (inside : words.concernsHoldings = true) (holdings : world.holdings = world'.holdings) :
    (Terminal.registry.run setting world words).2.holdings =
      (Terminal.registry.run setting world' words).2.holdings := by
  obtain ⟨family, other, own⟩ : ∃ family, family ≠ .repositories ∧ words.isOf family = true := by
    rcases Bool.or_eq_true_iff.mp inside with own | own
    · exact ⟨.instances, by decide, own⟩
    · exact ⟨.keys, by decide, own⟩
  refine lines_by_cases (R := fun next next' => next.holdings = next'.holdings) distinct distinct'
    (fun _ => asked_alike own (holdings_show_the_views other holdings)) ?_ holdings
  intro change asks
  obtain rfl := families_are_disjoint (asks_in_its_family asks) own
  exact change_acts_on_the_holdings other holdings

end Holdings

namespace Session

variable {left right : Session} {input input' : Input}

/-- A line about anything but the kind of resources is a command that passes, and no more. -/
theorem view_after_another_line (ready : left.Ready) (command : input.isCommand = true)
    (outside : input.isOf family = false) :
    (left.take input).world.view family = left.found.view family := by
  obtain ⟨words, parsed⟩ := Option.isSome_iff_exists.mp command
  rw [Input.isOf, parsed] at outside
  rw [world_after_line ready parsed]
  exact line_outside_keeps_the_view (found_has_distinct_names ready) outside

theorem take_of_no_command (blank : input.isCommand = false) : left.take input = left :=
  take_of_blank left input (by simpa [Input.isCommand] using blank)

/-- One side may take a line of another kind that the other side leaves out. -/
theorem AlikeIn.leave_out (alike : AlikeIn family left right) (other : family ≠ .repositories)
    (outside : input.isOf family = false) : AlikeIn family (left.take input) right := by
  obtain ⟨readyLeft, readyRight, delay, view⟩ := alike
  refine ⟨take_is_ready readyLeft, readyRight, (take_keeps_the_settings left input).2 ▸ delay, ?_⟩
  cases command : input.isCommand with
  | true =>
    rw [view_after_another_line readyLeft command outside, found, tick_keeps_the_view other, view]
  | false => rw [take_of_no_command command, view]

/-- Two commands about other resources than repositories are as good as each other for these. -/
theorem AlikeIn.replace (alike : AlikeIn .repositories left right)
    (command : input.isCommand = true) (outside : input.isOf .repositories = false)
    (command' : input'.isCommand = true) (outside' : input'.isOf .repositories = false) :
    AlikeIn .repositories (left.take input) (right.take input') := by
  obtain ⟨readyLeft, readyRight, delay, view⟩ := alike
  refine ⟨take_is_ready readyLeft, take_is_ready readyRight, ?_, ?_⟩
  · rw [(take_keeps_the_settings left input).2, (take_keeps_the_settings right input').2, delay]
  · rw [view_after_another_line readyLeft command outside,
      view_after_another_line readyRight command' outside']
    exact tick_acts_on_the_view view

theorem start_is_alike (config : Config) (entropy : Random.Source) (family : Family) :
    AlikeIn family (start config entropy) (start config entropy) :=
  ⟨start_is_ready config entropy, start_is_ready config entropy, rfl, rfl⟩

/-- Two sessions with the same settings hold the same instances and keys, from the same source. -/
structure HoldsAlike (left right : Session) : Prop where
  readyLeft : left.Ready
  readyRight : right.Ready
  config : left.config = right.config
  holdings : left.world.holdings = right.world.holdings

/-- Both sides may take the same line about instances and keys. -/
theorem HoldsAlike.take (alike : HoldsAlike left right) (inside : input.concernsHoldings = true) :
    HoldsAlike (left.take input) (right.take input) := by
  obtain ⟨readyLeft, readyRight, config, holdings⟩ := alike
  refine ⟨take_is_ready readyLeft, take_is_ready readyRight, ?_, ?_⟩
  · rw [(take_keeps_the_settings left input).2, (take_keeps_the_settings right input).2, config]
  · cases parsed : Line.parse input.line with
    | none => rw [take_of_blank left input parsed, take_of_blank right input parsed, holdings]
    | some words =>
      rw [Input.concernsHoldings, Input.isOf, Input.isOf, parsed] at inside
      rw [world_after_line readyLeft parsed, world_after_line readyRight parsed, config]
      exact line_acts_on_the_holdings (found_has_distinct_names readyLeft)
        (found_has_distinct_names readyRight) inside holdings

theorem HoldsAlike.leave_out (alike : HoldsAlike left right) (outside : input.concernsHoldings = false) :
    HoldsAlike (left.take input) right := by
  obtain ⟨readyLeft, readyRight, config, holdings⟩ := alike
  refine ⟨take_is_ready readyLeft, readyRight, (take_keeps_the_settings left input).2.trans config, ?_⟩
  cases parsed : Line.parse input.line with
  | none => rw [take_of_blank left input parsed, holdings]
  | some words =>
    rw [Input.concernsHoldings, Input.isOf, Input.isOf, parsed] at outside
    rw [world_after_line readyLeft parsed,
      line_outside_keeps_the_holdings (found_has_distinct_names readyLeft) outside]
    exact holdings

end Session

/-- Whether two inputs are the same line, or two commands neither of which is about repositories. -/
def Input.SameForRepositories (input input' : Input) : Prop :=
  input.line = input'.line ∨
    (input.isCommand = true ∧ input.isOf .repositories = false) ∧
      input'.isCommand = true ∧ input'.isOf .repositories = false

/-- After every run, the instances by name, type and power state are those of the run of the lines about
instances alone; the keys by name and mark are those of the run of the lines about keys alone; the
instances and keys in full are those of the run of the lines about either. The repositories and
the waiting clones stay the same when commands about anything else are replaced by others of that sort. -/
theorem kinds_of_resources_are_independent (config : Config) (entropy : Random.Source) (inputs : List Input) :
    let run (inputs : List Input) : World := ((Session.start config entropy).after inputs).world
    let ofInstances := inputs.filter (·.isOf .instances)
    let ofKeys := inputs.filter (·.isOf .keys)
    let ofBoth := inputs.filter fun input => input.isOf .instances || input.isOf .keys
    (run inputs).store.instances.toList.map (fun i => (i.name, i.type, i.power)) =
        (run ofInstances).store.instances.toList.map (fun i => (i.name, i.type, i.power)) ∧
      (run inputs).store.keys.toList.map (fun key => (key.name, key.added)) =
        (run ofKeys).store.keys.toList.map (fun key => (key.name, key.added)) ∧
      (run inputs).store.instances = (run ofBoth).store.instances ∧
      (run inputs).store.keys = (run ofBoth).store.keys ∧
      ∀ replaced, List.Forall₂ Input.SameForRepositories inputs replaced →
        (run inputs).store.repositories = (run replaced).store.repositories ∧
          (run inputs).clones = (run replaced).clones := by
  intro run ofInstances ofKeys ofBoth
  have alone : ∀ family, family ≠ .repositories →
      (run inputs).view family = (run (inputs.filter (·.isOf family))).view family := by
    intro family other
    exact (Session.run_follows_its_kept_inputs (R := Session.AlikeIn family)
      (fun _ _ _ _ alike => alike.take rfl) (fun _ _ _ outside alike => alike.leave_out other outside)
      inputs (Session.start_is_alike config entropy family)).view
  have both : (run inputs).holdings = (run ofBoth).holdings :=
    (Session.run_follows_its_kept_inputs (R := Session.HoldsAlike)
      (fun _ _ _ inside alike => alike.take inside) (fun _ _ _ outside alike => alike.leave_out outside)
      inputs ⟨Session.start_is_ready config entropy, Session.start_is_ready config entropy, rfl, rfl⟩).holdings
  simp only [World.holdings, Prod.mk.injEq] at both
  refine ⟨alone .instances (by decide), alone .keys (by decide), both.1, both.2.1, ?_⟩
  intro replaced same
  have alike : Session.AlikeIn .repositories ((Session.start config entropy).after inputs)
      ((Session.start config entropy).after replaced) := by
    refine Session.runs_stay_related ?_ same (Session.start_is_alike config entropy .repositories)
    intro left right input input' same alike
    rcases same with same | ⟨⟨command, outside⟩, command', outside'⟩
    · exact alike.take same
    · exact alike.replace command outside command' outside'
  exact Prod.mk.inj (show (_, _) = (_, _) from alike.view)

/-- A clone is not disturbed when the lines around it, about instances and keys, are replaced by others. -/
theorem clone_among_other_lines :
    let config : Config := { seed := some 3, cloneDelay := 1 }
    let inputs : List Input := [⟨"", "create instance web compute"⟩, ⟨"", "git clone https://h/app"⟩,
      ⟨"", " "⟩, ⟨"", "ssh-keygen"⟩, ⟨"", "stop instance web"⟩]
    let replaced : List Input := [⟨"1", "pwd"⟩, ⟨"2", "git clone https://h/app"⟩, ⟨"3", " "⟩,
      ⟨"4", "nonsense"⟩, ⟨"5", "clear"⟩]
    List.Forall₂ Input.SameForRepositories inputs replaced ∧
      ((Session.start config 0).after inputs).world.store.repositories =
        ((Session.start config 0).after replaced).world.store.repositories := by
  intro config inputs replaced
  have same : List.Forall₂ Input.SameForRepositories inputs replaced :=
    .cons (.inr ⟨⟨rfl, rfl⟩, rfl, rfl⟩) (.cons (.inl rfl) (.cons (.inl rfl)
      (.cons (.inr ⟨⟨rfl, rfl⟩, rfl, rfl⟩) (.cons (.inr ⟨⟨rfl, rfl⟩, rfl, rfl⟩) .nil))))
  have independent := kinds_of_resources_are_independent config 0 inputs
  dsimp only at independent
  exact ⟨same, (independent.2.2.2.2 replaced same).1⟩

end CloudTerminal
