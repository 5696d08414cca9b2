import Mathlib.Data.List.DropRight
import CloudTerminal.Proofs.Logging

/-!
What the log holds after a run. The lines alone decide it: `Input.sinceClear` picks those after the last `clear`,
blank ones left out, and the log has one entry for each of them, with the line as it was typed and the time. What
the log held before stays in front of the new entries, unless a line clears it
(`log_grows_by_the_lines_since_the_last_clear`). Blank lines leave no trace in a session at all
(`blank_lines_leave_no_trace`).
-/

namespace CloudTerminal

namespace Input

def isBlank (input : Input) : Bool := Text.isAllBlank input.line

/-- Whether `clear` is the only word in the line of an input. -/
def clears (input : Input) : Bool := Text.words input.line.toList == ["clear".toList]

/-- The inputs after the last one that clears the log, blank lines left out. -/
def sinceClear (inputs : List Input) : List Input := (inputs.rtakeWhile (!·.clears)).filter (!·.isBlank)

theorem blank_iff_no_words (input : Input) : input.isBlank = true ↔ Line.parse input.line = none := by
  rw [← Option.not_isSome_iff_eq_none, ← isCommand, command_iff_not_blank, isBlank, Bool.not_eq_false]

theorem clears_iff_only_clear (input : Input) : input.clears = true ↔ Line.parse input.line = some .clear := by
  rw [clears, beq_iff_eq, Line.clear, Line.parse_eq_word_iff]

/-- One more line is added to those since the last clear, unless it is blank; a clear leaves none of them. -/
theorem sinceClear_concat (inputs : List Input) (input : Input) :
    sinceClear (inputs ++ [input]) =
      if input.clears then [] else sinceClear inputs ++ if input.isBlank then [] else [input] := by
  unfold sinceClear
  cases clears : input.clears with
  | true => rw [List.rtakeWhile_concat_neg _ _ _ (by simp [clears])]; rfl
  | false =>
    rw [List.rtakeWhile_concat_pos _ _ _ (by simp [clears]), List.filter_append]
    cases blank : input.isBlank <;> simp [blank]

end Input

namespace Session

variable {session : Session} {input : Input}

/-- A line that is neither blank nor `clear` adds one entry, and that is what the session answers. -/
theorem line_adds_its_entry (terminal : session.registry = Terminal.registry) (written : input.isBlank = false)
    (kept : input.clears = false) : ∃ output,
      (session.execute input.clock input.line).1 = some ⟨input.line, output, input.clock⟩ ∧
        (session.take input).log.entries = session.log.entries ++ [⟨input.line, output, input.clock⟩] := by
  obtain ⟨words, parsed⟩ : ∃ words, Line.parse input.line = some words := by
    rw [← Option.ne_none_iff_exists', ne_eq, ← input.blank_iff_no_words, written]
    exact Bool.false_ne_true
  have other : words ≠ .clear := by
    rintro rfl
    rw [input.clears_iff_only_clear.mpr parsed] at kept
    cases kept
  obtain ⟨output, answered, logged⟩ := other_line_is_logged terminal input.clock parsed other
  exact ⟨output, answered, congrArg Log.entries logged⟩

/-- A run keeps what the log held, unless one of its lines clears the log, and adds an entry for each of its lines
since then. -/
theorem log_grows_by_the_lines_since_the_last_clear (session : Session)
    (terminal : session.registry = Terminal.registry) (inputs : List Input) : ∃ added,
      (session.after inputs).log.entries =
          (if inputs.any Input.clears then [] else session.log.entries) ++ added ∧
        added.map (fun entry => (entry.timestamp, entry.input)) =
          (Input.sinceClear inputs).map fun input => (input.clock, input.line) := by
  induction inputs using List.reverseRecOn with
  | nil => exact ⟨[], by simp [after], rfl⟩
  | append_singleton inputs input ih =>
    obtain ⟨added, grown, told⟩ := ih
    have ready : (session.after inputs).registry = Terminal.registry :=
      (after_keeps_the_settings session inputs).1.trans terminal
    have last : session.after (inputs ++ [input]) = (session.after inputs).take input :=
      after_append session inputs [input]
    rw [last, List.any_append, Input.sinceClear_concat]
    cases clears : input.clears with
    | true =>
      have emptied := (clear_empties_the_log ready input.clock (input.clears_iff_only_clear.mp clears)).2
      exact ⟨[], by simp [take, emptied, clears], rfl⟩
    | false =>
      cases blank : input.isBlank with
      | true =>
        rw [take_of_blank _ input (input.blank_iff_no_words.mp blank)]
        exact ⟨added, by simp [grown, clears], by simp [told]⟩
      | false =>
        obtain ⟨output, _, logged⟩ := line_adds_its_entry ready blank clears
        refine ⟨added ++ [⟨input.line, output, input.clock⟩], ?_, ?_⟩
        · simp [logged, grown, clears]
        · simp [told]

/-- A log that starts empty has as many entries as there are lines since the last `clear`, and is empty again
only if there are none. -/
theorem log_counts_the_lines_since_the_last_clear (terminal : session.registry = Terminal.registry)
    (fresh : session.log = .empty) (inputs : List Input) :
    (session.after inputs).log.size = (Input.sinceClear inputs).length ∧
      ((session.after inputs).log.isEmpty = true ↔ Input.sinceClear inputs = []) := by
  obtain ⟨added, grown, told⟩ := session.log_grows_by_the_lines_since_the_last_clear terminal inputs
  rw [fresh, Log.entries_empty, ite_self, List.nil_append] at grown
  have counted : (session.after inputs).log.size = (Input.sinceClear inputs).length := by
    have as_many := congrArg List.length told
    rw [List.length_map, List.length_map] at as_many
    rw [Log.size, grown, as_many]
  refine ⟨counted, ?_⟩
  rw [Log.isEmpty, List.isEmpty_iff, ← List.length_eq_zero_iff, ← List.length_eq_zero_iff, ← counted, Log.size]

/-- Blank lines can be left out of a run. -/
theorem blank_lines_leave_no_trace (session : Session) (inputs : List Input) :
    session.after (inputs.filter (!·.isBlank)) = session.after inputs := by
  induction inputs generalizing session with
  | nil => rfl
  | cons input rest ih =>
    cases blank : input.isBlank with
    | true =>
      have ignored := take_of_blank session input (input.blank_iff_no_words.mp blank)
      rw [List.filter_cons_of_neg (by simp [blank]), ih]
      show session.after rest = (session.take input).after rest
      rw [ignored]
    | false =>
      rw [List.filter_cons_of_pos (by simp [blank])]
      exact ih (session.take input)

/-- Only a blank line and one that clears the log are answered with no entry. -/
theorem no_entry_iff_blank_or_clear (terminal : session.registry = Terminal.registry) (input : Input) :
    (session.execute input.clock input.line).1 = none ↔ input.isBlank = true ∨ input.clears = true := by
  rw [entry_unless_blank_or_clear terminal, input.blank_iff_no_words, input.clears_iff_only_clear]

/-- The entry that a line is answered with is the one that the log gains, with the line as it was given and
its time. -/
theorem entry_is_the_one_added (terminal : session.registry = Terminal.registry) {entry : LogEntry}
    (answered : (session.execute input.clock input.line).1 = some entry) :
    entry.input = input.line ∧ entry.timestamp = input.clock ∧
      (session.take input).log.entries = session.log.entries ++ [entry] := by
  have some_answered : ¬(input.isBlank = true ∨ input.clears = true) := by
    rw [← no_entry_iff_blank_or_clear terminal input, answered]
    exact Option.some_ne_none entry
  obtain ⟨written, kept⟩ := not_or.mp some_answered
  obtain ⟨output, same, logged⟩ := line_adds_its_entry terminal (Bool.eq_false_iff.mpr written)
    (Bool.eq_false_iff.mpr kept)
  obtain rfl := Option.some.inj (answered.symm.trans same)
  exact ⟨rfl, rfl, logged⟩

end Session

/-- After every run, the log has one entry for each line since the last `clear` that is not blank, in order, with
the line as it was typed and the time at which it was given. Lines that follow leave these entries as they are, or
clear them all, and add their own. A line is answered with no entry exactly if it is blank or its only word is
`clear`, and otherwise with the entry that it has added. Runs that differ in nothing but blank lines leave the
same session. -/
theorem log_follows_the_lines_since_the_last_clear (config : Config) (entropy : Random.Source)
    (inputs : List Input) :
    let start := Session.start config entropy
    let session := start.after inputs
    session.log.entries.map (fun entry => (entry.timestamp, entry.input)) =
        (Input.sinceClear inputs).map (fun input => (input.clock, input.line)) ∧
      (∀ later, ∃ added, (session.after later).log.entries =
          (if later.any Input.clears then [] else session.log.entries) ++ added ∧
        added.map (fun entry => (entry.timestamp, entry.input)) =
          (Input.sinceClear later).map fun input => (input.clock, input.line)) ∧
      (∀ input : Input, (session.execute input.clock input.line).1 = none ↔
        input.isBlank = true ∨ input.clears = true) ∧
      (∀ (input : Input) entry, (session.execute input.clock input.line).1 = some entry →
        entry.input = input.line ∧ entry.timestamp = input.clock ∧
          (session.take input).log.entries = session.log.entries ++ [entry]) ∧
      ∀ others, others.filter (!·.isBlank) = inputs.filter (!·.isBlank) → start.after others = session := by
  intro start session
  have terminal : session.registry = Terminal.registry := (start.after_keeps_the_settings inputs).1
  refine ⟨?_, session.log_grows_by_the_lines_since_the_last_clear terminal,
    Session.no_entry_iff_blank_or_clear terminal, fun _ _ => Session.entry_is_the_one_added terminal, ?_⟩
  · obtain ⟨added, grown, told⟩ := start.log_grows_by_the_lines_since_the_last_clear rfl inputs
    have fresh : start.log.entries = [] := rfl
    rw [fresh, ite_self, List.nil_append] at grown
    rw [grown, told]
  · intro others same
    rw [← start.blank_lines_leave_no_trace others, same]
    exact start.blank_lines_leave_no_trace inputs

end CloudTerminal
