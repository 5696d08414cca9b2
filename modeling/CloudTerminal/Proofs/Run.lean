import Mathlib.Data.List.Forall2
import CloudTerminal.Proofs.Dispatch
import CloudTerminal.Proofs.Words
import CloudTerminal.Session

/-!
Runs of a session over any number of lines. `history` is what a run has asked and been answered, blank lines
left out (`command_iff_not_blank`), and `chronicle` is the same with the times. `chronicle_keeps` is the induction
that every law of runs goes by: what holds at the start, and is kept by each way in which a line can end after the
clones have advanced, holds after every run. Laws about two runs go by `runs_stay_related`, or by
`run_follows_its_kept_inputs` when one of them leaves out some of the lines of the other.
-/

namespace CloudTerminal

/-- A line, and the time that the clock shows when it is given. -/
structure Input where
  clock : String
  line : String
  deriving DecidableEq

def Input.isCommand (input : Input) : Bool := (Line.parse input.line).isSome

/-- Lines in order, each at the time that a clock shows for it. -/
def Input.timed (times : Nat → String) (lines : List String) : List Input :=
  lines.mapIdx fun n line => ⟨times n, line⟩

theorem timed_lines_agree (times times' : Nat → String) (lines : List String) :
    List.Forall₂ (fun input input' => input.line = input'.line) (Input.timed times lines)
      (Input.timed times' lines) := by
  induction lines generalizing times times' with
  | nil => exact .nil
  | cons line rest ih =>
    simp only [Input.timed, List.mapIdx_cons]
    exact .cons rfl (ih (fun n => times (n + 1)) fun n => times' (n + 1))

theorem command_iff_not_blank (input : Input) :
    input.isCommand = true ↔ Text.isAllBlank input.line = false := by
  have none_left : Text.words input.line.toList = [] ↔ Text.isAllBlank input.line = true := by
    rw [Text.no_words_iff_all_blank, Text.isAllBlank, List.all_eq_true]
  unfold Input.isCommand Line.parse
  cases words : Text.words input.line.toList with
  | nil => simp [none_left.mp words]
  | cons command arguments =>
    have some_left : Text.isAllBlank input.line ≠ true := by
      intro blank
      rw [none_left.mpr blank] at words
      cases words
    simpa using some_left

/-- A line that was carried out, and its answer or the reason why it was refused. -/
abbrev Exchange := Line × Except Error Reply

/-- An exchange, and the time that the clock showed. -/
structure Moment where
  clock : String
  words : Line
  result : Except Error Reply

/-- What was asked and answered at a moment. -/
def Moment.exchange (moment : Moment) : Exchange := (moment.words, moment.result)

namespace Session

variable (session : Session) (input : Input) (inputs : List Input)

/-- The session after an input. -/
def take : Session := (session.execute input.clock input.line).2

/-- The session after some inputs, one after the other. -/
def after : Session := inputs.foldl take session

/-- The world that the next line finds, the clones that wait having advanced. -/
def found : World := session.world.tick.2

/-- How the line of an input is answered, if it is not blank. -/
def exchange? : Option Exchange :=
  (Line.parse input.line).map fun words =>
    (words, (session.registry.run ⟨session.config, input.clock⟩ session.found words).1)

/-- All that is asked and answered in a run. -/
def history (session : Session) : List Input → List Exchange
  | [] => []
  | input :: rest => (session.exchange? input).toList ++ history (session.take input) rest

/-- What happens when an input is taken, if it is not blank. -/
def moment? : Option Moment :=
  (session.exchange? input).map fun (words, result) => { clock := input.clock, words, result }

/-- All that happens in a run, with the times. -/
def chronicle (session : Session) : List Input → List Moment
  | [] => []
  | input :: rest => (session.moment? input).toList ++ chronicle (session.take input) rest

theorem history_of_chronicle : session.history inputs = (session.chronicle inputs).map Moment.exchange := by
  induction inputs generalizing session with
  | nil => rfl
  | cons input rest ih =>
    rw [history, chronicle, List.map_append, ih]
    unfold moment?
    cases session.exchange? input <;> rfl

/-- A blank line is not taken at all: no command passes. -/
theorem take_of_blank (blank : Line.parse input.line = none) : session.take input = session := by
  simp [take, execute, blank]

/-- A line with words is run on the world after one passing command, with the time of the line. -/
theorem take_spec (words : Line) (parsed : Line.parse input.line = some words) :
    (session.take input).registry = session.registry ∧
      (session.take input).config = session.config ∧
      (session.take input).world =
        (session.registry.run ⟨session.config, input.clock⟩ session.found words).2 := by
  simp only [take, execute, parsed, found]
  split <;> exact ⟨rfl, rfl, rfl⟩

/-- What a line says and what it does to the world are of one effect. -/
theorem exchange_has_effect {words : Line} {result : Except Error Reply}
    (terminal : session.registry = Terminal.registry)
    (said : session.exchange? input = some (words, result)) :
    LineEffect ⟨session.config, input.clock⟩ session.found words
      (result, (session.take input).world) := by
  obtain ⟨words', parsed, answered⟩ := Option.map_eq_some_iff.mp said
  simp only [Prod.mk.injEq] at answered
  obtain ⟨rfl, rfl⟩ := answered
  rw [(take_spec session input words' parsed).2.2, terminal]
  exact run_has_effect _ _ _

theorem take_keeps_the_settings :
    (session.take input).registry = session.registry ∧ (session.take input).config = session.config := by
  cases parsed : Line.parse input.line with
  | none => rw [take_of_blank session input parsed]; exact ⟨rfl, rfl⟩
  | some words =>
    obtain ⟨registry, config, _⟩ := take_spec session input words parsed
    exact ⟨registry, config⟩

theorem after_keeps_the_settings :
    (session.after inputs).registry = session.registry ∧
      (session.after inputs).config = session.config := by
  induction inputs generalizing session with
  | nil => exact ⟨rfl, rfl⟩
  | cons input rest ih =>
    obtain ⟨registry, config⟩ := take_keeps_the_settings session input
    obtain ⟨laterRegistry, laterConfig⟩ := ih (session.take input)
    exact ⟨laterRegistry.trans registry, laterConfig.trans config⟩

theorem after_append (first second : List Input) :
    session.after (first ++ second) = (session.after first).after second := List.foldl_append

/-- A run has one exchange for every line that is not blank. -/
theorem history_length : (session.history inputs).length = inputs.countP Input.isCommand := by
  induction inputs generalizing session with
  | nil => rfl
  | cons input rest ih =>
    rw [history, List.length_append, ih, List.countP_cons, Nat.add_comm]
    cases parsed : Line.parse input.line <;> simp [exchange?, Input.isCommand, parsed]

/-- What related inputs keep of two sessions, related runs keep. -/
theorem runs_stay_related {R : Session → Session → Prop} {related : Input → Input → Prop}
    (step : ∀ left right input input', related input input' → R left right →
      R (left.take input) (right.take input'))
    {left right : Session} {inputs inputs' : List Input} (paired : List.Forall₂ related inputs inputs')
    (start : R left right) : R (left.after inputs) (right.after inputs') := by
  induction paired generalizing left right with
  | nil => exact start
  | cons same _ ih => exact ih (step _ _ _ _ same start)

/-- A run whose inputs are kept or left out, and the run of the kept inputs alone. -/
theorem run_follows_its_kept_inputs {R : Session → Session → Prop} {p : Input → Bool}
    (kept : ∀ left right input, p input = true → R left right → R (left.take input) (right.take input))
    (left_out : ∀ left right input, p input = false → R left right → R (left.take input) right)
    {left right : Session} (inputs : List Input) (start : R left right) :
    R (left.after inputs) (right.after (inputs.filter p)) := by
  induction inputs generalizing left right with
  | nil => exact start
  | cons input rest ih =>
    cases keep : p input with
    | true =>
      rw [List.filter_cons_of_pos keep]
      exact ih (kept left right input keep start)
    | false =>
      rw [List.filter_cons_of_neg (by simp [keep])]
      exact ih (left_out left right input keep start)

/-- What every line keeps is kept by a run from any point on. The induction is on the inputs, with the past
growing by each. -/
private theorem chronicle_keeps_from {P : List Moment → World → Prop} {config : Config}
    (step : ∀ past world clock words result next,
      LineEffect ⟨config, clock⟩ world.tick.2 words (result, next) →
        P past world → P (past ++ [⟨clock, words, result⟩]) next)
    (inputs : List Input) (session : Session) (terminal : session.registry = Terminal.registry)
    (configured : session.config = config) (past : List Moment) (holds : P past session.world) :
    P (past ++ session.chronicle inputs) (session.after inputs).world := by
  induction inputs generalizing session past with
  | nil => simpa [chronicle, after] using holds
  | cons input rest ih =>
    obtain ⟨registry, kept⟩ := take_keeps_the_settings session input
    rw [chronicle, ← List.append_assoc]
    -- A blank line adds nothing to the past; every other line is one step.
    apply ih (session.take input) (registry.trans terminal) (kept.trans configured)
    cases said : session.exchange? input with
    | none =>
      have blank : Line.parse input.line = none := Option.map_eq_none_iff.mp said
      rw [take_of_blank session input blank, moment?, said]
      simpa using holds
    | some exchange =>
      obtain ⟨words, result⟩ := exchange
      have effect := exchange_has_effect session input terminal said
      rw [configured] at effect
      rw [moment?, said]
      exact step past session.world input.clock words result _ effect holds

/-- A law that relates what has happened in a run to the world that it leaves. The step is a line whose effect is
known, in the world that the line finds. -/
theorem chronicle_keeps {P : List Moment → World → Prop} (terminal : session.registry = Terminal.registry)
    (initial : P [] session.world)
    (step : ∀ past world clock words result next,
      LineEffect ⟨session.config, clock⟩ world.tick.2 words (result, next) →
        P past world → P (past ++ [⟨clock, words, result⟩]) next) :
    P (session.chronicle inputs) (session.after inputs).world := by
  simpa using chronicle_keeps_from step inputs session terminal rfl [] initial

/-- A law of runs that the times have no part in. -/
theorem run_keeps {P : List Exchange → World → Prop} (terminal : session.registry = Terminal.registry)
    (initial : P [] session.world)
    (step : ∀ past world clock words result next,
      LineEffect ⟨session.config, clock⟩ world.tick.2 words (result, next) →
        P past world → P (past ++ [(words, result)]) next) :
    P (session.history inputs) (session.after inputs).world := by
  rw [history_of_chronicle]
  refine session.chronicle_keeps inputs (P := fun past world => P (past.map Moment.exchange) world)
    terminal initial ?_
  intro past world clock words result next effect holds
  rw [List.map_append]
  exact step (past.map Moment.exchange) world clock words result next effect holds

end Session

end CloudTerminal
