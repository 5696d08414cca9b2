import CloudTerminal.Proofs.Framing
import CloudTerminal.Proofs.Run

/-!
The shell over a part of its input. Whole lines are read alike, whatever stands behind them (`lines_append`),
and as long as the shell goes on it takes them one by one and then takes the rest as it would from there
(`run_of_whole_lines`). So the first line that is not text, unless the shell has ended before it, cuts the
shell off: nothing is shown for it, and the session is the one that has taken the lines before it
(`unreadable_line_cuts_the_shell_off`).
-/

namespace CloudTerminal.Shell

/-- The shell takes a line of bytes and waits for the next one: the line is text, and it is no exit word. -/
def GoesOn (line : List UInt8) : Prop :=
  ∃ text, String.fromUTF8? line.toByteArray = some text ∧ isExit text = false

/-- The lines of an input, each with the time that is shown for it. -/
def timed (times : Nat → String) (input : List UInt8) : List (String × List UInt8) :=
  (lines input).mapIdx fun n line => (times n, line)

/-- What the lines that are text give to a session. -/
def inputs (lines : List (String × List UInt8)) : List Input :=
  lines.filterMap fun (clock, line) =>
    (String.fromUTF8? line.toByteArray).map fun text => { clock, line := text }

/-- An input of whole lines: nothing stands behind its last line feed. -/
def Terminated (input : List UInt8) : Prop := ∀ byte, input.getLast? = some byte → byte = 10

/-- The bytes of the first lines of an input, their line feeds included. -/
def firstLines : Nat → List UInt8 → List UInt8
  | 0, _ => []
  | k + 1, input =>
    match Text.cutFirst (· == 10) input with
    | none => input
    | some (line, rest) => line ++ 10 :: firstLines k rest

section Lines

variable {input : List UInt8}

/-- Input is terminated if it is empty or ends in a line feed. -/
theorem terminated_iff (input : List UInt8) : Terminated input ↔ input = [] ∨ ∃ front, input = front ++ [10] := by
  rcases List.eq_nil_or_concat' input with rfl | ⟨front, byte, rfl⟩
  · simp [Terminated]
  · simp [Terminated]

theorem Terminated.append {front back : List UInt8} (first : Terminated front) (second : Terminated back) :
    Terminated (front ++ back) := by
  intro byte last
  rw [List.getLast?_append, Option.or_eq_some_iff] at last
  rcases last with found | ⟨_, found⟩
  · exact second byte found
  · exact first byte found

/-- Whole lines are read alike, whatever stands behind them. -/
theorem lines_append {whole : List UInt8} (terminated : Terminated whole) (rest : List UInt8) :
    lines (whole ++ rest) = lines whole ++ lines rest := by
  rcases (terminated_iff whole).mp terminated with rfl | ⟨front, rfl⟩
  · rfl
  · have pieces : ∀ behind : List UInt8, Text.splitAll (· == 10) (front ++ 10 :: behind) =
        Text.splitAll (· == 10) front ++ Text.splitAll (· == 10) behind :=
      Text.splitAll_append_sep rfl front
    have some_there := Text.splitAll_ne_nil (· == 10) rest
    simp only [lines, List.append_assoc, List.singleton_append, pieces, Text.splitAll_nil, List.dropLast_concat,
      List.getLast?_concat, List.dropLast_append_of_ne_nil some_there, List.getLast?_append_of_ne_nil _ some_there,
      List.map_append]
    rfl

theorem one_line {line : List UInt8} (single : ∀ byte ∈ line, (byte == 10) = false) :
    lines (line ++ [10]) = [withoutReturn line] := by
  have cut := Text.splitAll_append_sep (p := (· == 10)) (c := 10) rfl line []
  rw [Text.splitAll_of_forall_not single] at cut
  simp [lines, cut]

/-- Input without a line feed is at most one line. -/
theorem at_most_one_line (single : ∀ byte ∈ input, (byte == 10) = false) : (lines input).length ≤ 1 := by
  simp only [lines, Text.splitAll_of_forall_not single, List.dropLast_singleton, List.map_nil, List.nil_append,
    List.getLast?_singleton]
  exact Option.length_toList_le

theorem firstLines_of_line {line : List UInt8} (single : ∀ byte ∈ line, (byte == 10) = false) (k : Nat)
    (rest : List UInt8) : firstLines (k + 1) (line ++ 10 :: rest) = line ++ [10] ++ firstLines k rest := by
  have cut : Text.cutFirst (· == 10) (line ++ 10 :: rest) = some (line, rest) :=
    Text.cutFirst_eq_some_iff.mpr ⟨10, rfl, single, rfl⟩
  simp [firstLines, cut]

/-- The first lines of an input are whole lines at its beginning, and they are read as the first of its lines. -/
theorem first_lines_are_read_first {k : Nat} (fewer : k < (lines input).length) : ∃ rest,
    input = firstLines k input ++ rest ∧ Terminated (firstLines k input) ∧
      lines (firstLines k input) = (lines input).take k := by
  induction k generalizing input with
  | zero => exact ⟨input, rfl, by simp [firstLines, Terminated], rfl⟩
  | succ k ih =>
    cases cut : Text.cutFirst (· == 10) input with
    | none =>
      have few := at_most_one_line (Text.cutFirst_eq_none_iff.mp cut)
      omega
    | some found =>
      obtain ⟨line, rest⟩ := found
      obtain ⟨byte, feed, single, rfl⟩ := Text.cutFirst_eq_some_iff.mp cut
      obtain rfl : byte = 10 := eq_of_beq feed
      have whole : Terminated (line ++ [10]) := (terminated_iff _).mpr (.inr ⟨line, rfl⟩)
      have head : ∀ behind, lines (line ++ [10] ++ behind) = withoutReturn line :: lines behind := by
        intro behind
        rw [lines_append whole, one_line single, List.singleton_append]
      have joined : line ++ 10 :: rest = line ++ [10] ++ rest := by simp
      rw [joined, head, List.length_cons, Nat.add_lt_add_iff_right] at fewer
      obtain ⟨behind, list, terminated, read⟩ := ih fewer
      rw [firstLines_of_line single]
      refine ⟨behind, ?_, whole.append terminated, ?_⟩
      · rw [List.append_assoc, ← list, joined]
      · rw [joined, head, head, read, List.take_succ_cons]

end Lines

variable (session : Session)

theorem step_of_text (clock : String) {text : String} {line : List UInt8}
    (read : String.fromUTF8? line.toByteArray = some text) (stays : isExit text = false) :
    ∃ shown, step clock session line = .goOn shown (session.take ⟨clock, text⟩) :=
  ⟨_, by simp only [step, read, stays, respond, Session.take]; rfl⟩

/-- As long as the shell goes on, what it does with some lines does not depend on what stands behind them. -/
theorem takeLines_append {first : List (String × List UInt8)} (stays : ∀ timed ∈ first, GoesOn timed.2) :
    ∃ shown, ∀ rest, takeLines session (first ++ rest) =
      { takeLines (session.after (inputs first)) rest with
        output := shown ++ (takeLines (session.after (inputs first)) rest).output } := by
  induction first generalizing session with
  | nil => exact ⟨"", fun rest => by simp [inputs, Session.after]⟩
  | cons line later ih =>
    obtain ⟨clock, line⟩ := line
    obtain ⟨text, read, no_exit⟩ := stays _ List.mem_cons_self
    obtain ⟨reply, taken⟩ := step_of_text session clock read no_exit
    obtain ⟨shown, alike⟩ := ih (session.take ⟨clock, text⟩)
      fun timed member => stays timed (List.mem_cons_of_mem _ member)
    have given : inputs ((clock, line) :: later) = ⟨clock, text⟩ :: inputs later := by simp [inputs, read]
    refine ⟨reply ++ shown, fun rest => ?_⟩
    rw [List.cons_append, takeLines, taken, given]
    simp only [alike, String.append_assoc]
    rfl

/-- Later lines do not move the times at which earlier ones are read. -/
theorem timed_append (times : Nat → String) {whole : List UInt8} (terminated : Terminated whole)
    (rest : List UInt8) : timed times (whole ++ rest) =
      timed times whole ++ timed (fun n => times (n + (lines whole).length)) rest := by
  rw [timed, lines_append terminated, List.mapIdx_append]
  rfl

/-- The shell over whole lines that it goes on through, alone and in front of other input. -/
theorem run_of_whole_lines (times : Nat → String) {whole : List UInt8} (terminated : Terminated whole)
    (stays : ∀ line ∈ lines whole, GoesOn line) :
    let passed := session.after (inputs (timed times whole))
    ∃ shown, runAt times session whole = { output := shown ++ "\n", session := passed, readable := true } ∧
      ∀ rest, let behind := takeLines passed (timed (fun n => times (n + (lines whole).length)) rest)
        runAt times session (whole ++ rest) = { behind with output := shown ++ behind.output } := by
  have all : ∀ line ∈ timed times whole, GoesOn line.2 := by
    intro line member
    obtain ⟨n, inside, rfl⟩ := List.mem_mapIdx.mp member
    exact stays _ (List.getElem_mem inside)
  have ran : ∀ input, runAt times session input = { takeLines session (timed times input) with
      output := header session ++ prompt session ++ (takeLines session (timed times input)).output } :=
    fun input => rfl
  obtain ⟨shown, alike⟩ := takeLines_append session all
  refine ⟨header session ++ prompt session ++ shown, ?_, ?_⟩
  · have alone := alike []
    rw [List.append_nil] at alone
    rw [ran, alone, takeLines, ← String.append_assoc]
  · intro rest
    rw [ran, timed_append times terminated, alike, ← String.append_assoc]

/-- Input behind whole lines, if its first line is not text. -/
theorem run_to_unreadable_line (times : Nat → String) {whole rest line : List UInt8} {later : List (List UInt8)}
    (terminated : Terminated whole) (stays : ∀ line ∈ lines whole, GoesOn line) (next : lines rest = line :: later)
    (unreadable : String.fromUTF8? line.toByteArray = none) :
    let transcript := runAt times session (whole ++ rest)
    transcript.readable = false ∧ transcript.session = session.after (inputs (timed times whole)) ∧
      (runAt times session whole).readable = true ∧
      (runAt times session whole).output = transcript.output ++ "\n" := by
  intro transcript
  obtain ⟨shown, alone, alike⟩ := run_of_whole_lines session times terminated stays
  have stopped : ∀ (times : Nat → String) (passed : Session), takeLines passed (timed times rest) =
      { output := "", session := passed, readable := false } := by
    intro times passed
    rw [timed, next, List.mapIdx_cons, takeLines, step, unreadable]
  have cut : transcript =
      { output := shown, session := session.after (inputs (timed times whole)), readable := false } := by
    simp only [transcript, alike, stopped, String.append_empty]
  rw [cut, alone]
  exact ⟨rfl, rfl, rfl, rfl⟩

/-- The shell over an input whose line `k` is the first that is not text, with no exit word before it. It
cannot read the input, the session is left as it was after the lines before that one, and what it has shown is
what it shows for these lines alone, without the line feed at the end. More generally, what it does with whole
lines that it goes on through does not depend on what stands behind them, and it takes what stands behind them
as it would if it was started there. -/
theorem unreadable_line_cuts_the_shell_off (session : Session) (times : Nat → String) :
    (∀ (input : List UInt8) (k : Nat) (line : List UInt8), (lines input)[k]? = some line →
      String.fromUTF8? line.toByteArray = none → (∀ earlier ∈ (lines input).take k, GoesOn earlier) →
        let transcript := runAt times session input
        let read := firstLines k input
        transcript.readable = false ∧
          transcript.session = session.after (inputs ((timed times input).take k)) ∧
          read <+: input ∧ Terminated read ∧ lines read = (lines input).take k ∧
          (runAt times session read).readable = true ∧
          (runAt times session read).output = transcript.output ++ "\n") ∧
    ∀ whole rest : List UInt8, Terminated whole → (∀ line ∈ lines whole, GoesOn line) →
      let passed := session.after (inputs (timed times whole))
      let behind := runAt (fun n => times (n + (lines whole).length)) passed rest
      ∃ shown more,
        runAt times session whole = { output := shown ++ "\n", session := passed, readable := true } ∧
          behind.output = header passed ++ prompt passed ++ more ∧
          runAt times session (whole ++ rest) = { behind with output := shown ++ more } := by
  constructor
  · intro input k line found unreadable stays
    have inside : k < (lines input).length := (List.getElem?_eq_some_iff.mp found).1
    obtain ⟨rest, list, terminated, taken⟩ := first_lines_are_read_first inside
    generalize firstLines k input = read at list terminated taken
    subst list
    have length : (lines read).length = k := by rw [taken, List.length_take_of_le inside.le]
    have next : (lines rest).head? = some line := by
      rwa [lines_append terminated, ← length, List.getElem?_append_right (Nat.le_refl _), Nat.sub_self,
        ← List.head?_eq_getElem?] at found
    obtain ⟨later, next⟩ := List.head?_eq_some_iff.mp next
    have before : (timed times (read ++ rest)).take k = timed times read := by
      rw [timed_append times terminated, List.take_left' (by rw [timed, List.length_mapIdx, length])]
    rw [← taken] at stays
    obtain ⟨failed, left, succeeded, shown⟩ :=
      run_to_unreadable_line session times terminated stays next unreadable
    rw [before]
    exact ⟨failed, left, List.prefix_append read rest, terminated, taken, succeeded, shown⟩
  · intro whole rest terminated stays passed behind
    obtain ⟨shown, alone, alike⟩ := run_of_whole_lines session times terminated stays
    exact ⟨shown, _, alone, rfl, alike rest⟩

/-- A line that breaks off inside a character ends the shell, although `exit` stands behind it. Started behind
the line before it, the shell ends likewise. -/
theorem shell_stops_inside_a_character :
    let session : Session := { config := {}, world := .ofSeed 5 }
    let times : Nat → String := fun _ => "12:00:00"
    let whole := Text.bytes "ssh-keygen laptop\r\n"
    let rest := [112, 119, 195, 10] ++ Text.bytes "exit\n"
    let transcript := runAt times session (whole ++ rest)
    let passed := session.after [⟨"12:00:00", "ssh-keygen laptop"⟩]
    transcript.readable = false ∧ transcript.session = passed ∧
      (runAt times session whole).output = transcript.output ++ "\n" ∧
      (runAt times passed rest).readable = false := by
  intro session times whole rest transcript passed
  have broken : (lines (whole ++ rest))[1]? = some [112, 119, 195] := by decide +kernel
  have unreadable : String.fromUTF8? ([112, 119, 195] : List UInt8).toByteArray = none := by decide +kernel
  have first : lines whole = [Text.bytes "ssh-keygen laptop"] := by decide +kernel
  have only : (lines (whole ++ rest)).take 1 = lines whole := by decide +kernel
  have stays : ∀ line ∈ lines whole, GoesOn line := by
    rw [first]
    intro line member
    rw [List.mem_singleton.mp member]
    exact ⟨"ssh-keygen laptop", by decide +kernel, by decide +kernel⟩
  have terminated : Terminated whole := by
    have last : whole.getLast? = some 10 := by decide +kernel
    intro byte same
    exact (Option.some.inj (last.symm.trans same)).symm
  have given : inputs (timed times whole) = [⟨"12:00:00", "ssh-keygen laptop"⟩] := by decide +kernel
  have before : (timed times (whole ++ rest)).take 1 = timed times whole := by decide +kernel
  have read : firstLines 1 (whole ++ rest) = whole := by decide +kernel
  obtain ⟨cut_off, taken_over⟩ := unreadable_line_cuts_the_shell_off session times
  have cut := cut_off (whole ++ rest) 1 _ broken unreadable (by rw [only]; exact stays)
  rw [before, given, read] at cut
  obtain ⟨failed, left, _, _, _, _, shown⟩ := cut
  obtain ⟨_, _, _, _, joined⟩ := taken_over whole rest terminated stays
  rw [given] at joined
  exact ⟨failed, left, shown, (congrArg Transcript.readable joined).symm.trans failed⟩

end CloudTerminal.Shell
