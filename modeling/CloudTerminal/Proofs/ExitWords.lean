import CloudTerminal.Proofs.Interruption
import CloudTerminal.Proofs.Transcript
import CloudTerminal.Proofs.UnknownCommand

/-!
Exit words. The shell hands the lines in front of the first that it does not go on through to its session
(`Shell.given`), and these tell what it leaves and what it writes (`takeLines_of_given`). It looks at whole
lines, the session at first words: `exit` and `logout` end the shell where they stand alone, and a line that
goes on behind one of them is handed on, and is logged as an unknown command
(`exit_word_with_arguments_is_handed_on`).
-/

namespace CloudTerminal

namespace Shell

instance : DecidablePred GoesOn := fun line =>
  decidable_of_iff ((String.fromUTF8? line.toByteArray).any (!isExit ·) = true)
    (by simp [GoesOn, Option.any_eq_true])

/-- What the shell hands to its session of some lines: those in front of the first that ends it. -/
def given (lines : List (String × List UInt8)) : List Input := inputs (lines.takeWhile fun line => GoesOn line.2)

variable {session : Session} {clock text : String} {line : List UInt8} {rest : List (String × List UInt8)}

/-- A line that is read and does not end the shell is given to the session, and the shell reads on. -/
theorem given_of_goes_on (read : String.fromUTF8? line.toByteArray = some text) (stays : isExit text = false) :
    given ((clock, line) :: rest) = ⟨clock, text⟩ :: given rest := by
  have goes_on : GoesOn line := ⟨text, read, stays⟩
  simp [given, inputs, goes_on, read]

theorem given_of_end (ends : ¬GoesOn line) : given ((clock, line) :: rest) = [] := by
  simp [given, inputs, ends]

theorem step_writes (terminal : session.registry = Terminal.registry)
    (read : String.fromUTF8? line.toByteArray = some text) (stays : isExit text = false) :
    let input : Input := ⟨clock, text⟩
    step clock session line =
      .goOn (Piece.texts (session.echoed input ++ session.updated input ++ [.prompt (session.take input)]))
        (session.take input) := by
  intro input
  have responds := Session.respond_writes terminal input
  simp only [step, read, stays, Bool.false_eq_true, if_false]
  rw [responds]

/-- The lines that the shell hands on tell what it leaves and what it writes, up to the line feed that it
writes behind them unless the next line is not text. -/
theorem takeLines_of_given (session : Session) (terminal : session.registry = Terminal.registry)
    (lines : List (String × List UInt8)) :
    ∃ readable, takeLines session lines =
      { output := Piece.texts (session.written (given lines)) ++ (if readable then "\n" else ""),
        session := session.after (given lines), readable } := by
  induction lines generalizing session with
  | nil => exact ⟨true, rfl⟩
  | cons first rest ih =>
    obtain ⟨clock, line⟩ := first
    cases read : String.fromUTF8? line.toByteArray with
    | none =>
      have ends : ¬GoesOn line := by
        rintro ⟨text, same, _⟩
        rw [read] at same
        cases same
      refine ⟨false, ?_⟩
      rw [given_of_end ends, takeLines, step, read]
      rfl
    | some text =>
      cases exits : isExit text with
      | true =>
        have ends : ¬GoesOn line := by
          rintro ⟨_, same, stays⟩
          obtain rfl := Option.some.inj (read.symm.trans same)
          rw [exits] at stays
          cases stays
        refine ⟨true, ?_⟩
        rw [given_of_end ends, takeLines, step, read]
        simp only [exits, if_true]
        rfl
      | false =>
        have kept := (Session.take_keeps_the_settings session ⟨clock, text⟩).1.trans terminal
        obtain ⟨readable, later⟩ := ih _ kept
        refine ⟨readable, ?_⟩
        rw [given_of_goes_on read exits, takeLines, step_writes terminal read exits, Session.written,
          Piece.texts_append _ ((session.take _).written _), String.append_assoc]
        simp only [later, Session.after, List.foldl_cons]

/-- What the shell makes of its input is what the session makes of the lines that it is given, and nothing is
read behind the end. -/
theorem runAt_of_given (session : Session) (terminal : session.registry = Terminal.registry) (times : Nat → String)
    (input : List UInt8) :
    let transcript := runAt times session input
    let given := given (timed times input)
    transcript.session = session.after given ∧
      transcript.output = Piece.texts ([.header session, .prompt session] ++ session.written given) ++
        (if transcript.readable then "\n" else "") := by
  intro transcript given
  obtain ⟨readable, taken⟩ := takeLines_of_given session terminal (timed times input)
  have runs : transcript = { takeLines session (timed times input) with
      output := header session ++ prompt session ++ (takeLines session (timed times input)).output } := rfl
  have greeting : header session ++ prompt session = Piece.texts [.header session, .prompt session] := by
    simp [Piece.texts, Piece.text]
  rw [runs, taken]
  refine ⟨rfl, ?_⟩
  rw [Piece.texts_append, greeting, String.append_assoc]

theorem given_line_is_no_exit {lines : List (String × List UInt8)} {input : Input} (member : input ∈ given lines) :
    isExit input.line = false := by
  obtain ⟨⟨clock, line⟩, taken, made⟩ := List.mem_filterMap.mp member
  obtain ⟨text, read, rfl⟩ := Option.map_eq_some_iff.mp made
  have goes_on := List.mem_takeWhile_imp taken
  obtain ⟨_, same, stays⟩ := of_decide_eq_true goes_on
  obtain rfl := Option.some.inj (read.symm.trans same)
  exact stays

/-- A line ends the shell exactly if it is read as one of the words alone, whatever blanks stand around it. -/
theorem exit_iff_an_exit_word_alone (text : String) :
    isExit text = true ↔ ∃ word ∈ exitWords, Line.parse text = some ⟨word, []⟩ := by
  have ends := exit_iff_ends ⟨"", text⟩
  rw [ends, Input.ends, List.contains_iff_mem]
  simp [exitWords]

/-- The whole line is compared, and its first word is the whole line exactly if nothing stands behind it. -/
theorem exit_iff_nothing_behind {word : String} {arguments : List String} (exits : word ∈ exitWords)
    (parsed : Line.parse text = some ⟨word, arguments⟩) : isExit text = true ↔ arguments = [] := by
  rw [exit_iff_an_exit_word_alone, parsed]
  constructor
  · rintro ⟨other, _, same⟩
    cases same
    rfl
  · rintro rfl
    exact ⟨word, exits, rfl⟩

end Shell

/-- No command can be meant by a word that ends the shell, so that nothing is hidden by it. -/
theorem exit_words_name_no_command :
    ∀ word ∈ Shell.exitWords, word ≠ "help" ∧ ∀ command ∈ Terminal.commands, command.name ≠ word := by
  decide

section Answers

variable {session : Session} {input : Input} {word : String}

/-- An exit word is answered as unknown exactly if it has arguments, or if help is asked about it. -/
theorem exit_word_is_unknown_iff (terminal : session.registry = Terminal.registry) (exits : word ∈ Shell.exitWords)
    (stays : Shell.isExit input.line = false) :
    (∃ words, session.exchange? input = some (words, .error (.unknownCommand word))) ↔
      (∃ first rest, Line.parse input.line = some ⟨word, first :: rest⟩) ∨
        Line.parse input.line = some ⟨"help", [word]⟩ := by
  obtain ⟨no_help, no_command⟩ := exit_words_name_no_command word exits
  have alone : Line.parse input.line ≠ some ⟨word, []⟩ := by
    intro parsed
    rw [(Shell.exit_iff_an_exit_word_alone input.line).mpr ⟨word, exits, parsed⟩] at stays
    cases stays
  have answered : ∀ words : Line, (Terminal.registry.run ⟨session.config, input.clock⟩ session.found words).1 =
      .error (.unknownCommand word) ↔ words.command = word ∨ words = ⟨"help", [word]⟩ := by
    intro words
    rw [unknown_command_iff]
    exact ⟨fun known => known.2.2, fun said => ⟨no_help, no_command, said⟩⟩
  unfold Session.exchange?
  rw [terminal]
  cases parsed : Line.parse input.line with
  | none => simp
  | some words =>
    have given :
        (∃ asked, some (words, (Terminal.registry.run ⟨session.config, input.clock⟩ session.found words).1) =
        some (asked, .error (.unknownCommand word))) ↔ words.command = word ∨ words = ⟨"help", [word]⟩ := by
      rw [← answered]
      simp
    obtain ⟨name, arguments⟩ := words
    rw [parsed] at alone
    rw [Option.map_some, given]
    constructor
    · rintro (rfl | same)
      · cases arguments with
        | nil => exact absurd rfl alone
        | cons first rest => exact .inl ⟨first, rest, rfl⟩
      · exact .inr (congrArg some same)
    · rintro (⟨first, rest, same⟩ | same)
      · exact .inl (congrArg Line.command (Option.some.inj same))
      · exact .inr (Option.some.inj same)

theorem unknown_command_is_logged {words : Line}
    (answered : session.exchange? input = some (words, .error (.unknownCommand word))) :
    let entry : LogEntry := ⟨input.line, "command not found: " ++ word, input.clock⟩
    (session.execute input.clock input.line).1 = some entry ∧
      (session.take input).log = session.log.append entry := by
  obtain ⟨words', parsed, said⟩ := Option.map_eq_some_iff.mp answered
  simp only [Prod.mk.injEq] at said
  obtain ⟨rfl, refused⟩ := said
  have message : (Error.unknownCommand word).message = "command not found: " ++ word := rfl
  unfold Session.found at refused
  simp only [Session.take, Session.execute, parsed, refused, Session.shown?, message]
  exact ⟨trivial, trivial⟩

end Answers

/-- The shell over any bytes. It leaves the session that has taken the lines in front of the first that is not
text or ends it, and writes the header, a prompt and what is written for each of these lines. A line that
begins with an exit word ends it exactly if nothing stands behind that word. So none of the lines handed on is
an exit word alone, and one of them is answered that an exit word is an unknown command exactly if it begins
with that word, and something stands behind it, or asks for help about it; it is logged so. -/
theorem exit_word_with_arguments_is_handed_on (config : Config) (world : World) (log : Log) (times : Nat → String)
    (input : List UInt8) :
    let session : Session := { config, world, log }
    let transcript := Shell.runAt times session input
    let given := Shell.given (Shell.timed times input)
    transcript.session = session.after given ∧
      transcript.output = Piece.texts ([.header session, .prompt session] ++ session.written given) ++
        (if transcript.readable then "\n" else "") ∧
      ∀ word ∈ Shell.exitWords,
        (∀ text arguments, Line.parse text = some ⟨word, arguments⟩ →
          (Shell.isExit text = true ↔ arguments = [])) ∧
        (∀ line ∈ given, Line.parse line.line ≠ some ⟨word, []⟩) ∧
        ∀ before line behind, given = before ++ line :: behind →
          let found := session.after before
          let entry : LogEntry := ⟨line.line, "command not found: " ++ word, line.clock⟩
          ((∃ words, found.exchange? line = some (words, .error (.unknownCommand word))) ↔
            (∃ first rest, Line.parse line.line = some ⟨word, first :: rest⟩) ∨
              Line.parse line.line = some ⟨"help", [word]⟩) ∧
          ∀ words, found.exchange? line = some (words, .error (.unknownCommand word)) →
            (found.execute line.clock line.line).1 = some entry ∧
            (found.take line).log = found.log.append entry := by
  intro session transcript given
  obtain ⟨left, written⟩ := Shell.runAt_of_given session rfl times input
  refine ⟨left, written, fun word exits => ⟨fun _ _ => Shell.exit_iff_nothing_behind exits, ?_, ?_⟩⟩
  · intro line member parsed
    have stays := Shell.given_line_is_no_exit member
    rw [(Shell.exit_iff_nothing_behind exits parsed).mpr rfl] at stays
    cases stays
  · intro before line behind cut found entry
    have member : line ∈ given := cut ▸ List.mem_append_right before List.mem_cons_self
    have terminal : found.registry = Terminal.registry := (session.after_keeps_the_settings before).1
    exact ⟨exit_word_is_unknown_iff terminal exits (Shell.given_line_is_no_exit member),
      fun words answered => unknown_command_is_logged answered⟩

/-- Of three lines the shell hands on the first two, and logs the second as an unknown command. -/
theorem logout_with_an_argument_is_logged :
    let session : Session := { config := {}, world := .ofSeed 5 }
    let input := Text.bytes "pwd\r\n\tlogout now \nlogout \npwd\n"
    let first : Input := ⟨"12:00:00", "pwd"⟩
    let second : Input := ⟨"12:00:00", "\tlogout now "⟩
    let transcript := Shell.run "12:00:00" session input
    Shell.given (Shell.timed (fun _ => "12:00:00") input) = [first, second] ∧
      transcript.session = session.after [first, second] ∧
      transcript.session.log =
        (session.take first).log.append ⟨"\tlogout now ", "command not found: logout", "12:00:00"⟩ := by
  intro session input first second transcript
  have given : Shell.given (Shell.timed (fun _ => "12:00:00") input) = [first, second] := by decide +kernel
  obtain ⟨left, _, words⟩ := exit_word_with_arguments_is_handed_on {} (.ofSeed 5) {} (fun _ => "12:00:00") input
  obtain ⟨_, _, answers⟩ := words "logout" (by decide)
  obtain ⟨unknown, logged⟩ := answers [first] second [] given
  have parsed : Line.parse second.line = some ⟨"logout", ["now"]⟩ := by decide +kernel
  obtain ⟨_, answered⟩ := unknown.mpr (.inl ⟨"now", [], parsed⟩)
  rw [given] at left
  exact ⟨given, left, (congrArg Session.log left).trans (logged _ answered).2⟩

/-- The shell hands on a line whose first word is `exit`, and it is logged as an unknown command. -/
theorem exit_with_an_argument_is_logged :
    let session : Session := { config := {}, world := .ofSeed 5 }
    let input := Text.bytes "exit now\n"
    (∃ line ∈ Shell.given (Shell.timed (fun _ => "12:00:00") input), ∃ words,
        Line.parse line.line = some words ∧ words.command = "exit") ∧
      (Shell.run "12:00:00" session input).session.log.entries =
        [⟨"exit now", "command not found: exit", "12:00:00"⟩] := by
  refine ⟨⟨⟨"12:00:00", "exit now"⟩, ?_, ⟨"exit", ["now"]⟩, ?_, rfl⟩, ?_⟩
  all_goals decide +kernel

end CloudTerminal
