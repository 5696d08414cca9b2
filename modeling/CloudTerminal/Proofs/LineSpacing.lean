import Mathlib.Logic.ExistsUnique
import CloudTerminal.Proofs.Run

/-!
How lines are spaced. Every line consists of words with blanks around them and at least one blank between two
of them (`SpacedLine`), and in one way only: a blank belongs to no word and any other character to one
(`text_is_spaced`, `text_determines_the_spacing`). The line is read as these words
(`line_is_read_as_its_words`). Nothing else of it reaches a command, so that the spacing shows in the log
alone, where the line stands as it was typed (`Session.Agrees`).
-/

namespace CloudTerminal

/-- Words with the blanks behind each of them. Another word is parted from the one in front of it. -/
inductive IsSpaced : List (String × String) → Prop
  | nil : IsSpaced []
  | cons {word gap : String} {rest : List (String × String)} (solid : Text.IsWord word)
      (blank : Text.isAllBlank gap = true) (parted : rest ≠ [] → gap ≠ "") (spaced : IsSpaced rest) :
      IsSpaced ((word, gap) :: rest)

/-- A line as it is typed: the blanks in front of its words, and each word with the blanks behind it. -/
@[ext]
structure SpacedLine where
  lead : String
  pieces : List (String × String)

namespace SpacedLine

def text (spaced : SpacedLine) : String :=
  spaced.lead ++ String.join (spaced.pieces.map fun piece => piece.1 ++ piece.2)

def words (spaced : SpacedLine) : List String := spaced.pieces.map (·.1)

structure WellFormed (spaced : SpacedLine) : Prop where
  lead : Text.isAllBlank spaced.lead = true
  pieces : IsSpaced spaced.pieces

end SpacedLine

/-- The characters of words with blanks behind them. -/
def charactersOf (pieces : List (String × String)) : List Char :=
  pieces.flatMap fun piece => piece.1.toList ++ piece.2.toList

section Pieces

variable {word gap : String} {pieces : List (String × String)}

theorem blank_iff {text : String} : Text.isAllBlank text = true ↔ ∀ c ∈ text.toList, Text.isBlank c = true :=
  List.all_eq_true

theorem characters_of_cons (word gap : String) (pieces : List (String × String)) :
    charactersOf ((word, gap) :: pieces) = word.toList ++ (gap.toList ++ charactersOf pieces) := by
  simp [charactersOf]

theorem SpacedLine.toList_text (spaced : SpacedLine) :
    spaced.text.toList = spaced.lead.toList ++ charactersOf spaced.pieces := by
  simp [text, charactersOf, List.flatMap_map]

/-- Behind a word stands a blank, or nothing at all. -/
theorem word_ends (blank : Text.isAllBlank gap = true) (parted : pieces ≠ [] → gap ≠ "") :
    gap.toList = [] ∧ pieces = [] ∨ ∃ first others, gap.toList = first :: others ∧ Text.isBlank first = true := by
  cases characters : gap.toList with
  | nil =>
    refine .inl ⟨rfl, ?_⟩
    by_contra another
    exact parted another (by simpa using characters)
  | cons first others => exact .inr ⟨first, others, rfl, blank_iff.mp blank first (by simp [characters])⟩

theorem behind_a_word (blank : Text.isAllBlank gap = true) (parted : pieces ≠ [] → gap ≠ "") :
    ∀ c ∈ (gap.toList ++ charactersOf pieces).head?, Text.isBlank c = true := by
  intro c head
  obtain ⟨nothing, rfl⟩ | ⟨first, others, characters, blank_first⟩ := word_ends blank parted
  · rw [nothing] at head
    cases head
  · rw [characters, List.cons_append, List.head?_cons, Option.mem_some_iff] at head
    exact head ▸ blank_first

theorem IsSpaced.begins_with_a_word (spaced : IsSpaced pieces) :
    ∀ c ∈ (charactersOf pieces).head?, Text.isBlank c = false := by
  intro c head
  cases spaced with
  | nil => cases head
  | cons solid =>
    obtain ⟨first, others, begins⟩ := List.exists_cons_of_ne_nil solid.filled
    rw [characters_of_cons, begins, List.cons_append, List.head?_cons, Option.mem_some_iff] at head
    exact solid.solid c (by simp [begins, head])

/-- The words are found in the pieces that they were written in, by induction on these. -/
theorem words_of_pieces (spaced : IsSpaced pieces) :
    Text.words (charactersOf pieces) = pieces.map (·.1.toList) := by
  induction spaced with
  | nil => rfl
  | @cons word gap rest solid blank parted _ ih =>
    have alone : Text.words word.toList = [word.toList] := Text.words_of_solid solid.filled solid.solid
    rw [characters_of_cons, List.map_cons, ← ih]
    obtain ⟨nothing, rfl⟩ | ⟨first, others, characters, blank_first⟩ := word_ends blank parted
    · rw [nothing, charactersOf, List.flatMap_nil, List.nil_append, List.append_nil, alone]
      rfl
    · have blank_others : ∀ c ∈ others, Text.isBlank c = true := fun c member =>
        blank_iff.mp blank c (by simp [characters, member])
      rw [characters, List.cons_append, Text.words_append_blank blank_first,
        Text.words_after_blanks blank_others, alone]
      rfl

/-- Characters up to the first one of another kind. -/
theorem text_up_to_another_kind {p : Char → Bool} {front front' back back' : List Char}
    (alike : ∀ c ∈ front, p c = true) (alike' : ∀ c ∈ front', p c = true) (stops : ∀ c ∈ back.head?, p c = false)
    (stops' : ∀ c ∈ back'.head?, p c = false) (same : front ++ back = front' ++ back') :
    front = front' ∧ back = back' := by
  have cut {front back : List Char} (alike : ∀ c ∈ front, p c = true) (stops : ∀ c ∈ back.head?, p c = false) :
      Text.beforeFirst (!p ·) (front ++ back) = front :=
    Text.beforeFirst_append (by simpa using alike) (by simpa using stops)
  have fronts : front = front' := by rw [← cut alike stops, same, cut alike' stops']
  subst fronts
  exact ⟨rfl, List.append_cancel_left same⟩

/-- A text is cut into words and gaps in one way only, as each ends where the other kind begins. -/
theorem characters_determine_the_pieces {pieces pieces' : List (String × String)} (spaced : IsSpaced pieces)
    (spaced' : IsSpaced pieces') (same : charactersOf pieces = charactersOf pieces') : pieces = pieces' := by
  induction spaced generalizing pieces' with
  | nil =>
    cases spaced' with
    | nil => rfl
    | @cons word gap rest solid =>
      rw [characters_of_cons] at same
      exact absurd (List.append_eq_nil_iff.mp same.symm).1 solid.filled
  | @cons word gap rest solid blank parted spaced ih =>
    cases spaced' with
    | nil =>
      rw [characters_of_cons] at same
      exact absurd (List.append_eq_nil_iff.mp same).1 solid.filled
    | @cons word' gap' rest' solid' blank' parted' spaced' =>
      rw [characters_of_cons, characters_of_cons] at same
      -- The words end at the same blank, and the gaps end where the same next word begins.
      obtain ⟨words, behind⟩ := text_up_to_another_kind (p := (!Text.isBlank ·)) (by simpa using solid.solid)
        (by simpa using solid'.solid) (by simpa using behind_a_word blank parted)
        (by simpa using behind_a_word blank' parted') same
      obtain ⟨gaps, later⟩ := text_up_to_another_kind (blank_iff.mp blank) (blank_iff.mp blank')
        spaced.begins_with_a_word spaced'.begins_with_a_word behind
      rw [String.toList_injective words, String.toList_injective gaps, ih spaced' later]

end Pieces

namespace SpacedLine

variable {spaced spaced' : SpacedLine}

theorem words_of_text (wellFormed : spaced.WellFormed) :
    Text.words spaced.text.toList = spaced.words.map String.toList := by
  rw [toList_text, Text.words_after_blanks (blank_iff.mp wellFormed.lead), words_of_pieces wellFormed.pieces,
    words, List.map_map]
  rfl

/-- A line is spaced in one way only. -/
theorem text_determines_the_spacing (wellFormed : spaced.WellFormed) (wellFormed' : spaced'.WellFormed)
    (same : spaced.text = spaced'.text) : spaced = spaced' := by
  have characters := congrArg String.toList same
  rw [toList_text, toList_text] at characters
  obtain ⟨leads, pieces⟩ := text_up_to_another_kind (blank_iff.mp wellFormed.lead) (blank_iff.mp wellFormed'.lead)
    wellFormed.pieces.begins_with_a_word wellFormed'.pieces.begins_with_a_word characters
  exact SpacedLine.ext (String.toList_injective leads)
    (characters_determine_the_pieces wellFormed.pieces wellFormed'.pieces pieces)

/-- Every line is spaced. -/
theorem text_is_spaced (line : String) : ∃ spaced : SpacedLine, spaced.WellFormed ∧ spaced.text = line := by
  suffices spelled : ∀ text : List Char, ∃ spaced : SpacedLine, spaced.WellFormed ∧ spaced.text.toList = text by
    obtain ⟨spaced, wellFormed, same⟩ := spelled line.toList
    exact ⟨spaced, wellFormed, String.toList_injective same⟩
  intro text
  induction text with
  | nil => exact ⟨⟨"", []⟩, ⟨rfl, .nil⟩, rfl⟩
  | cons c rest ih =>
    obtain ⟨⟨lead, pieces⟩, ⟨blank_lead, spaced⟩, same⟩ := ih
    rw [toList_text] at same
    cases kind : Text.isBlank c with
    | true =>
      have blank : Text.isAllBlank (String.ofList (c :: lead.toList)) = true := by
        rw [blank_iff, String.toList_ofList]
        exact List.forall_mem_cons.mpr ⟨kind, blank_iff.mp blank_lead⟩
      exact ⟨⟨.ofList (c :: lead.toList), pieces⟩, ⟨blank, spaced⟩, by simp [toList_text, ← same]⟩
    | false =>
      -- The character goes on with the word behind it if there is one at once, or else is a word of its own.
      by_cases begins : pieces ≠ [] ∧ lead = ""
      · obtain ⟨another, rfl⟩ := begins
        cases spaced with
        | nil => exact absurd rfl another
        | @cons word gap others solid blank parted spaced =>
          have longer : Text.IsWord (String.ofList (c :: word.toList)) := by
            constructor <;> rw [String.toList_ofList]
            · exact List.cons_ne_nil _ _
            · exact List.forall_mem_cons.mpr ⟨kind, solid.solid⟩
          refine ⟨⟨"", (.ofList (c :: word.toList), gap) :: others⟩, ⟨rfl, .cons longer blank parted spaced⟩, ?_⟩
          rw [toList_text, characters_of_cons, ← same, characters_of_cons]
          simp
      · have single : Text.IsWord (String.ofList [c]) := by
          constructor <;> rw [String.toList_ofList]
          · exact List.cons_ne_nil _ _
          · exact List.forall_mem_singleton.mpr kind
        have parted : pieces ≠ [] → lead ≠ "" := fun another nothing => begins ⟨another, nothing⟩
        refine ⟨⟨"", (.ofList [c], lead) :: pieces⟩, ⟨rfl, .cons single blank_lead parted spaced⟩, ?_⟩
        rw [toList_text, characters_of_cons, ← same]
        simp

theorem words_are_words (wellFormed : spaced.WellFormed) {word : String} (member : word ∈ spaced.words) :
    Text.IsWord word := by
  have listed : word.toList ∈ Text.words spaced.text.toList := by
    rw [words_of_text wellFormed]
    exact List.mem_map_of_mem member
  obtain ⟨filled, solid⟩ := Text.words_are_solid listed
  exact ⟨filled, solid⟩

/-- A line is read as the words that it is spaced from. -/
theorem line_is_read_as_its_words (wellFormed : spaced.WellFormed) (words : Line) :
    Line.parse spaced.text = some words ↔ spaced.words = words.command :: words.arguments := by
  have restored (texts : List String) : (texts.map String.toList).map String.ofList = texts := by
    simp [Function.comp_def]
  obtain ⟨command, arguments⟩ := words
  unfold Line.parse
  rw [words_of_text wellFormed]
  cases spaced.words with
  | nil => simp
  | cons first others => simp only [List.map_cons, restored, String.ofList_toList, Option.some.injEq,
      Line.mk.injEq, List.cons.injEq]

/-- Lines of the same words are read alike. -/
theorem same_words_are_read_alike (wellFormed : spaced.WellFormed) (wellFormed' : spaced'.WellFormed)
    (same : spaced.words = spaced'.words) : Line.parse spaced.text = Line.parse spaced'.text := by
  refine Option.ext fun words => ?_
  rw [line_is_read_as_its_words wellFormed, line_is_read_as_its_words wellFormed', same]

end SpacedLine

theorem Line.none_iff_blank (line : String) : Line.parse line = none ↔ Text.isAllBlank line = true := by
  have command : (Line.parse line).isSome = true ↔ Text.isAllBlank line = false := command_iff_not_blank ⟨"", line⟩
  rw [← Option.not_isSome_iff_eq_none, command, Bool.not_eq_false]

/-- What is logged about a line besides the line as it was typed. -/
def LogEntry.answer (entry : LogEntry) : String × String := (entry.output, entry.timestamp)

namespace Session

/-- Two sessions that differ at most in how the lines that they have logged are spaced. -/
structure Agrees (left right : Session) : Prop where
  registry : left.registry = right.registry
  config : left.config = right.config
  world : left.world = right.world
  log : left.log.entries.map LogEntry.answer = right.log.entries.map LogEntry.answer

variable {left right : Session} {line line' : String}

/-- Two sessions that agree answer lines with the same words alike, and agree afterwards. -/
theorem Agrees.execute (agrees : left.Agrees right) (clock : String) (same : Line.parse line = Line.parse line') :
    (left.execute clock line).1.map LogEntry.answer = (right.execute clock line').1.map LogEntry.answer ∧
      (left.execute clock line).2.Agrees (right.execute clock line').2 := by
  obtain ⟨registry, config, world, log⟩ := agrees
  unfold Session.execute
  rw [same]
  cases parsed : Line.parse line' with
  | none => exact ⟨rfl, registry, config, world, log⟩
  | some words =>
    simp only [registry, config, world]
    cases shown? (right.registry.run ⟨right.config, clock⟩ right.world.tick.2 words).1 with
    | none => exact ⟨rfl, rfl, rfl, rfl, rfl⟩
    | some output => exact ⟨rfl, rfl, rfl, rfl, by simp [log, LogEntry.answer]⟩

/-- Runs over lines of the same words at the same times. -/
theorem Agrees.after (agrees : left.Agrees right) {inputs inputs' : List Input}
    (same : List.Forall₂ (fun input input' => input.clock = input'.clock ∧
      Line.parse input.line = Line.parse input'.line) inputs inputs') :
    (left.after inputs).Agrees (right.after inputs') := by
  refine runs_stay_related (R := Agrees) ?_ same agrees
  rintro left right ⟨clock, line⟩ ⟨_, line'⟩ ⟨rfl, words⟩ agrees
  exact (agrees.execute clock words).2

end Session

/-- A line is read as words exactly if it is spaced from them, and as nothing exactly if it is blank. Every
line is spaced in one way only, joining its words by single spaces does not change how it is read, and lines
of the same words are answered alike and leave the same world, whatever session they are given to and however
many of them there are. -/
theorem lines_are_read_as_they_are_spaced :
    (∀ line command arguments, Line.parse line = some ⟨command, arguments⟩ ↔
      ∃ spaced : SpacedLine, spaced.WellFormed ∧ spaced.text = line ∧ spaced.words = command :: arguments) ∧
    (∀ line, Line.parse line = none ↔ Text.isAllBlank line = true) ∧
    (∀ line, ∃! spaced : SpacedLine, spaced.WellFormed ∧ spaced.text = line) ∧
    (∀ line command arguments, Line.parse line = some ⟨command, arguments⟩ →
      Line.parse (" ".intercalate (command :: arguments)) = some ⟨command, arguments⟩) ∧
    (∀ (session : Session) (clock : String) (spaced spaced' : SpacedLine), spaced.WellFormed → spaced'.WellFormed →
      spaced.words = spaced'.words →
        (session.execute clock spaced.text).1.map LogEntry.answer =
            (session.execute clock spaced'.text).1.map LogEntry.answer ∧
          (session.execute clock spaced.text).2.world = (session.execute clock spaced'.text).2.world) ∧
    ∀ (session : Session) (inputs inputs' : List Input),
      List.Forall₂ (fun input input' => input.clock = input'.clock ∧
        Line.parse input.line = Line.parse input'.line)
        inputs inputs' →
      (session.after inputs).log.entries.map LogEntry.answer =
        (session.after inputs').log.entries.map LogEntry.answer ∧
        (session.after inputs).world = (session.after inputs').world := by
  have itself (session : Session) : session.Agrees session := ⟨rfl, rfl, rfl, rfl⟩
  refine ⟨fun line command arguments => ⟨fun parsed => ?_, ?_⟩, Line.none_iff_blank, fun line => ?_, ?_, ?_, ?_⟩
  · obtain ⟨spaced, wellFormed, rfl⟩ := SpacedLine.text_is_spaced line
    exact ⟨spaced, wellFormed, rfl, (SpacedLine.line_is_read_as_its_words wellFormed _).mp parsed⟩
  · rintro ⟨spaced, wellFormed, rfl, words⟩
    exact (SpacedLine.line_is_read_as_its_words wellFormed ⟨command, arguments⟩).mpr words
  · obtain ⟨spaced, wellFormed, same⟩ := SpacedLine.text_is_spaced line
    refine ⟨spaced, ⟨wellFormed, same⟩, fun other spaced_alike => ?_⟩
    exact SpacedLine.text_determines_the_spacing spaced_alike.1 wellFormed (spaced_alike.2.trans same.symm)
  · intro line command arguments parsed
    obtain ⟨spaced, wellFormed, rfl⟩ := SpacedLine.text_is_spaced line
    have words := (SpacedLine.line_is_read_as_its_words wellFormed _).mp parsed
    exact Line.parse_of_joined fun word member => SpacedLine.words_are_words wellFormed (words ▸ member)
  · intro session clock spaced spaced' wellFormed wellFormed' same
    have read := SpacedLine.same_words_are_read_alike wellFormed wellFormed' same
    obtain ⟨answer, after⟩ := (itself session).execute clock read
    exact ⟨answer, after.world⟩
  · intro session inputs inputs' same
    have after := (itself session).after same
    exact ⟨after.log, after.world⟩

/-- A line with blanks of four kinds, and one of its words, with a character that has no width but is not
blank, behind a single space. -/
theorem line_with_odd_blanks_is_read_like_a_plain_one :
    let spaced : SpacedLine := ⟨"\u3000", [("ssh-keygen", "\t\u2003"), ("a\u200bb", "\u0085")]⟩
    let spaced' : SpacedLine := ⟨"", [("ssh-keygen", " "), ("a\u200bb", "")]⟩
    let session := Session.start {} 0
    spaced.WellFormed ∧ spaced'.WellFormed ∧ spaced.words = spaced'.words ∧
      Line.parse spaced.text = some ⟨"ssh-keygen", ["a\u200bb"]⟩ ∧
      Line.parse "ssh-keygen a\u200bb" = some ⟨"ssh-keygen", ["a\u200bb"]⟩ ∧
      (session.execute "12:00:00" spaced.text).2.world = (session.execute "12:00:00" spaced'.text).2.world := by
  intro spaced spaced' session
  obtain ⟨-, -, -, joined, agree, -⟩ := lines_are_read_as_they_are_spaced
  have wellFormed : spaced.WellFormed :=
    ⟨by decide, .cons (by decide) (by decide) (by simp) (.cons (by decide) (by decide) (by simp) .nil)⟩
  have wellFormed' : spaced'.WellFormed :=
    ⟨by decide, .cons (by decide) (by decide) (by simp) (.cons (by decide) (by decide) (by simp) .nil)⟩
  have parsed : Line.parse spaced.text = some ⟨"ssh-keygen", ["a\u200bb"]⟩ := by decide
  exact ⟨wellFormed, wellFormed', rfl, parsed, joined _ _ _ parsed,
    (agree session "12:00:00" spaced spaced' wellFormed wellFormed' rfl).2⟩

end CloudTerminal
