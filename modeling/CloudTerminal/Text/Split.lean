import CloudTerminal.Text.Blank

/-!
Cutting texts at characters. `splitAll` cuts at every separator and keeps the empty pieces; `words`
keeps the pieces between blanks that hold something; `cutFirst` and `cutLast` cut once. The main
statements say that nothing but separators is lost.
-/

namespace CloudTerminal.Text

variable {α : Type}

/-- The pieces between the elements satisfying `p`, empty ones included. -/
def splitAll (p : α → Bool) (text : List α) : List (List α) :=
  text.foldr (fun c pieces => if p c then [] :: pieces else
    match pieces with
    | [] => [[c]]
    | piece :: rest => (c :: piece) :: rest) [[]]

/-- The maximal runs of characters that are not blank. -/
def words (text : List Char) : List (List Char) := (splitAll isBlank text).filter (!·.isEmpty)

/-- What stands before and after the first element satisfying `p`. -/
def cutFirst (p : α → Bool) (text : List α) : Option (List α × List α) :=
  match text.dropWhile (fun c => !p c) with
  | [] => none
  | _ :: after => some (text.takeWhile (fun c => !p c), after)

/-- What stands before and after the last element satisfying `p`. -/
def cutLast (p : α → Bool) (text : List α) : Option (List α × List α) :=
  (cutFirst p text.reverse).map fun (after, before) => (before.reverse, after.reverse)

/-- What stands after the last element satisfying `p`, or everything when there is none. -/
def afterLast (p : α → Bool) (text : List α) : List α :=
  match cutLast p text with
  | none => text
  | some (_, after) => after

/-- What stands before the first element satisfying `p`, or everything when there is none. -/
def beforeFirst (p : α → Bool) (text : List α) : List α := text.takeWhile (fun c => !p c)

@[simp] theorem splitAll_nil (p : α → Bool) : splitAll p [] = [[]] := rfl

theorem splitAll_ne_nil (p : α → Bool) (text : List α) : splitAll p text ≠ [] := by
  cases text with
  | nil => simp
  | cons c rest =>
    simp only [splitAll, List.foldr_cons]
    split
    · simp
    · split <;> simp

theorem splitAll_cons_of_sep {p : α → Bool} {c : α} (sep : p c = true) (text : List α) :
    splitAll p (c :: text) = [] :: splitAll p text := by
  simp [splitAll, sep]

theorem splitAll_cons_of_not_sep {p : α → Bool} {c : α} (keep : p c = false) {text piece : List α}
    {pieces : List (List α)} (found : splitAll p text = piece :: pieces) :
    splitAll p (c :: text) = (c :: piece) :: pieces := by
  unfold splitAll at found ⊢
  simp [keep, found]

/-- Cutting into pieces takes out the separators and nothing else. -/
theorem flatten_splitAll (p : α → Bool) (text : List α) :
    (splitAll p text).flatten = text.filter (!p ·) := by
  induction text with
  | nil => rfl
  | cons c rest ih =>
    cases sep : p c with
    | true => simpa [splitAll_cons_of_sep sep, sep] using ih
    | false =>
      cases found : splitAll p rest with
      | nil => exact absurd found (splitAll_ne_nil p rest)
      | cons piece pieces =>
        rw [found] at ih
        simp [splitAll_cons_of_not_sep sep found, sep, ← ih]

/-- A text without separators is one piece. -/
theorem splitAll_of_forall_not {p : α → Bool} {text : List α} (clear : ∀ c ∈ text, p c = false) :
    splitAll p text = [text] := by
  induction text with
  | nil => rfl
  | cons c rest ih =>
    have tail := ih fun d member => clear d (List.mem_cons_of_mem _ member)
    simp only [splitAll] at tail
    simp [splitAll, tail, clear c List.mem_cons_self]

/-- Cutting at the first separator takes out that separator and nothing else. -/
theorem cutFirst_eq_some_iff {p : α → Bool} {text before after : List α} :
    cutFirst p text = some (before, after) ↔
      ∃ c, p c = true ∧ (∀ d ∈ before, p d = false) ∧ text = before ++ c :: after := by
  induction text generalizing before with
  | nil => simp [cutFirst]
  | cons d rest ih =>
    cases sep : p d with
    | true =>
      constructor
      · intro cut
        simp only [cutFirst, List.dropWhile_cons, List.takeWhile_cons, sep, Bool.not_true,
          Bool.false_eq_true, if_false, Option.some.injEq, Prod.mk.injEq] at cut
        obtain ⟨rfl, rfl⟩ := cut
        exact ⟨d, sep, by simp, rfl⟩
      · rintro ⟨c, _, clear, same⟩
        cases before with
        | nil =>
          simp only [List.nil_append, List.cons.injEq] at same
          simp [cutFirst, sep, same.2]
        | cons b bs =>
          simp only [List.cons_append, List.cons.injEq] at same
          have := clear b List.mem_cons_self
          rw [← same.1, sep] at this
          cases this
    | false =>
      have step : cutFirst p (d :: rest) = (cutFirst p rest).map fun cut => (d :: cut.1, cut.2) := by
        simp only [cutFirst, List.dropWhile_cons, List.takeWhile_cons, sep, Bool.not_false, if_true]
        cases rest.dropWhile (fun c => !p c) <;> rfl
      rw [step]
      constructor
      · intro cut
        obtain ⟨⟨b, a⟩, found, same⟩ := Option.map_eq_some_iff.1 cut
        simp only [Prod.mk.injEq] at same
        obtain ⟨rfl, rfl⟩ := same
        obtain ⟨c, isSep, clear, rfl⟩ := ih.1 found
        exact ⟨c, isSep, by simpa [sep] using clear, rfl⟩
      · rintro ⟨c, isSep, clear, same⟩
        cases before with
        | nil =>
          simp only [List.nil_append, List.cons.injEq] at same
          rw [same.1, isSep] at sep
          cases sep
        | cons b bs =>
          simp only [List.cons_append, List.cons.injEq] at same
          have found : cutFirst p rest = some (bs, after) :=
            ih.2 ⟨c, isSep, fun e member => clear e (List.mem_cons_of_mem _ member), same.2⟩
          simp [found, same.1]

/-- Cutting at the first of the places where a character stands. -/
theorem cutFirst_at_iff {c : Char} {text before after : List Char} :
    cutFirst (· == c) text = some (before, after) ↔ c ∉ before ∧ text = before ++ c :: after := by
  rw [cutFirst_eq_some_iff]
  constructor
  · rintro ⟨d, sep, clear, whole⟩
    obtain rfl : d = c := by simpa using sep
    exact ⟨fun member => by simpa using clear d member, whole⟩
  · rintro ⟨absent, whole⟩
    refine ⟨c, beq_self_eq_true c, fun d member => ?_, whole⟩
    exact beq_false_of_ne fun equal => absent (equal ▸ member)

/-- Cutting at the last separator takes out that separator and nothing else. -/
theorem cutLast_eq_some_iff {p : α → Bool} {text before after : List α} :
    cutLast p text = some (before, after) ↔
      ∃ c, p c = true ∧ (∀ d ∈ after, p d = false) ∧ text = before ++ c :: after := by
  constructor
  · intro cut
    obtain ⟨⟨a, b⟩, found, same⟩ := Option.map_eq_some_iff.1 cut
    simp only [Prod.mk.injEq] at same
    obtain ⟨rfl, rfl⟩ := same
    obtain ⟨c, sep, clear, reversed⟩ := cutFirst_eq_some_iff.1 found
    refine ⟨c, sep, by simpa using clear, ?_⟩
    simpa using congrArg List.reverse reversed
  · rintro ⟨c, sep, clear, rfl⟩
    have found : cutFirst p (before ++ c :: after).reverse = some (after.reverse, before.reverse) :=
      cutFirst_eq_some_iff.2 ⟨c, sep, by simpa using clear, by simp⟩
    exact Option.map_eq_some_iff.2 ⟨_, found, by simp⟩

/-- There is nothing to cut at if and only if no element is a separator. -/
theorem cutFirst_eq_none_iff {p : α → Bool} {text : List α} :
    cutFirst p text = none ↔ ∀ c ∈ text, p c = false := by
  constructor
  · intro uncut
    unfold cutFirst at uncut
    split at uncut
    · rename_i nothing
      have whole := List.takeWhile_append_dropWhile (p := fun c => !p c) (l := text)
      have kept := List.all_takeWhile (p := fun c => !p c) (l := text)
      rw [nothing, List.append_nil] at whole
      rw [whole] at kept
      simpa using kept
    · cases uncut
  · intro clear
    refine Option.eq_none_iff_forall_ne_some.mpr ?_
    rintro ⟨before, after⟩ cut
    obtain ⟨c, sep, _, rfl⟩ := cutFirst_eq_some_iff.mp cut
    rw [clear c (by simp)] at sep
    cases sep

/-- Texts that agree have the same pieces in front of and behind their first separator. -/
theorem text_up_to_separator {c : Char} {front front' back back' : List Char} (clear : c ∉ front)
    (clear' : c ∉ front')
    (same : front ++ c :: back = front' ++ c :: back') : front = front' ∧ back = back' := by
  have pieces : cutFirst (· == c) (front ++ c :: back) = some (front, back) := cutFirst_at_iff.mpr ⟨clear, rfl⟩
  rw [same, cutFirst_at_iff.mpr ⟨clear', rfl⟩] at pieces
  simp only [Option.some.injEq, Prod.mk.injEq] at pieces
  exact ⟨pieces.1.symm, pieces.2.symm⟩

theorem cutLast_eq_none_iff {p : α → Bool} {text : List α} : cutLast p text = none ↔ ∀ c ∈ text, p c = false := by
  simp [cutLast, cutFirst_eq_none_iff]

theorem afterLast_of_clear {p : α → Bool} {text : List α} (clear : ∀ c ∈ text, p c = false) :
    afterLast p text = text := by
  rw [afterLast, cutLast_eq_none_iff.mpr clear]

theorem afterLast_append_sep {p : α → Bool} {c : α} (sep : p c = true) (before : List α) {after : List α}
    (clear : ∀ d ∈ after, p d = false) : afterLast p (before ++ c :: after) = after := by
  rw [afterLast, cutLast_eq_some_iff.mpr ⟨c, sep, clear, rfl⟩]

/-- What stands after the last separator holds none, and it is everything or stands behind one. -/
theorem afterLast_spec (p : α → Bool) (text : List α) :
    (∀ c ∈ afterLast p text, p c = false) ∧
      (text = afterLast p text ∨ ∃ before c, p c = true ∧ text = before ++ c :: afterLast p text) := by
  unfold afterLast
  split
  · rename_i uncut
    exact ⟨cutLast_eq_none_iff.mp uncut, .inl rfl⟩
  · rename_i before after cut
    obtain ⟨c, sep, clear, whole⟩ := cutLast_eq_some_iff.mp cut
    exact ⟨clear, .inr ⟨before, c, sep, whole⟩⟩

/-- What stands in front of the rest behind the last separator ends in one, if there is any. -/
theorem text_before_afterLast (p : α → Bool) (text : List α) :
    ∃ before, text = before ++ afterLast p text ∧ ∀ c ∈ before.getLast?, p c = true := by
  obtain ⟨-, bare | ⟨before, c, sep, split⟩⟩ := afterLast_spec p text
  · exact ⟨[], bare, by simp⟩
  · exact ⟨before ++ [c], by simpa using split, by simpa using sep⟩

theorem afterLast_append {p : α → Bool} {before after : List α} (ends : ∀ c ∈ before.getLast?, p c = true)
    (clear : ∀ c ∈ after, p c = false) : afterLast p (before ++ after) = after := by
  rcases List.eq_nil_or_concat before with rfl | ⟨others, c, rfl⟩
  · exact afterLast_of_clear clear
  · rw [List.concat_append]
    exact afterLast_append_sep (ends c (by simp)) others clear

/-- What stands in front of a separator does not matter for what stands behind the last one. -/
theorem afterLast_behind_sep {p : α → Bool} {c : α} (sep : p c = true) (before text : List α) :
    afterLast p (before ++ c :: text) = afterLast p text := by
  obtain ⟨front, whole, ends⟩ := text_before_afterLast p text
  have marked : ∀ d ∈ (before ++ c :: front).getLast?, p d = true := by
    cases front with
    | nil => simpa using sep
    | cons d others => simpa using ends
  have regrouped : before ++ c :: text = (before ++ c :: front) ++ afterLast p text := by
    rw [List.append_assoc, List.cons_append, ← whole]
  rw [regrouped]
  exact afterLast_append marked (afterLast_spec p text).1

theorem beforeFirst_append {p : α → Bool} {before rest : List α} (clear : ∀ c ∈ before, p c = false)
    (stops : ∀ c ∈ rest.head?, p c = true) : beforeFirst p (before ++ rest) = before := by
  rw [beforeFirst, List.takeWhile_append_of_pos fun c member => by simp [clear c member]]
  cases rest with
  | nil => simp
  | cons c rest => simp [stops c rfl]

/-- What stands before the first separator holds none, and the rest begins with one, if there is any. -/
theorem beforeFirst_spec (p : α → Bool) (text : List α) :
    (∀ c ∈ beforeFirst p text, p c = false) ∧
      ∃ rest, text = beforeFirst p text ++ rest ∧ ∀ c ∈ rest.head?, p c = true := by
  refine ⟨fun c member => ?_, text.dropWhile (fun c => !p c), List.takeWhile_append_dropWhile.symm,
    fun c head => ?_⟩
  · have kept := List.all_takeWhile (p := fun c => !p c) (l := text)
    simpa using List.all_eq_true.mp kept c member
  · have stopped := List.head?_dropWhile_not (fun c => !p c) text
    rw [Option.mem_def.mp head] at stopped
    simpa using stopped

end CloudTerminal.Text
