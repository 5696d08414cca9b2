/-!
Blank characters: the twenty-five scalars with the Unicode property `White_Space`. They separate the
words of a line, and they are what trimming removes from the ends of a text.
-/

namespace CloudTerminal.Text

/-- The blank characters in code point order. -/
def blanks : List Char :=
  ['\t', '\n', '\x0b', '\x0c', '\r', ' ', '\u0085', '\u00a0', '\u1680', '\u2000', '\u2001', '\u2002',
   '\u2003', '\u2004', '\u2005', '\u2006', '\u2007', '\u2008', '\u2009', '\u200a', '\u2028', '\u2029',
   '\u202f', '\u205f', '\u3000']

/-- Whether a character has the `White_Space` property. -/
def isBlank (c : Char) : Bool := blanks.contains c

/-- Removes the characters satisfying `p` from the start. -/
def trimStart (p : Char → Bool) (text : List Char) : List Char := text.dropWhile p

/-- Removes the characters satisfying `p` from the end. -/
def trimEnd (p : Char → Bool) (text : List Char) : List Char := (text.reverse.dropWhile p).reverse

/-- Removes the characters satisfying `p` from both ends. -/
def trim (p : Char → Bool) (text : List Char) : List Char := trimEnd p (trimStart p text)

/-- Whether a text consists of blank characters only. -/
def isAllBlank (text : String) : Bool := text.toList.all isBlank

example : blanks.length = 25 := rfl

@[simp] theorem trim_nil (p : Char → Bool) : trim p [] = [] := rfl

section TrimEnd

variable {p : Char → Bool} {text more : List Char}

/-- What is trimmed from the end are characters satisfying `p`, and nothing in front of them is changed. -/
theorem trimEnd_spec (p : Char → Bool) (text : List Char) :
    ∃ trailing, text = trimEnd p text ++ trailing ∧ ∀ c ∈ trailing, p c = true := by
  refine ⟨(text.reverse.takeWhile p).reverse, ?_, fun c member => ?_⟩
  · rw [trimEnd, ← List.reverse_append, List.takeWhile_append_dropWhile, List.reverse_reverse]
  · exact List.all_eq_true.mp List.all_takeWhile c (List.mem_reverse.mp member)

theorem trimmed_repetition (c : Char) (text : List Char) :
    ∃ count, text = trimEnd (· == c) text ++ List.replicate count c := by
  obtain ⟨trailing, whole, same⟩ := trimEnd_spec (· == c) text
  have all : trailing = List.replicate trailing.length c := List.eq_replicate_iff.mpr ⟨rfl, by simpa using same⟩
  rw [all] at whole
  exact ⟨_, whole⟩

theorem text_begins_with_trimmed (p : Char → Bool) (text : List Char) : trimEnd p text <+: text := by
  obtain ⟨trailing, whole, -⟩ := trimEnd_spec p text
  exact ⟨trailing, whole.symm⟩

theorem last_of_trimmed (p : Char → Bool) (text : List Char) : ∀ c ∈ (trimEnd p text).getLast?, p c = false := by
  intro c member
  have kept := List.head?_dropWhile_not p text.reverse
  rw [trimEnd, List.getLast?_reverse] at member
  rw [Option.mem_def.mp member] at kept
  simpa using kept

theorem trimEnd_of_kept_last (kept : ∀ c ∈ text.getLast?, p c = false) : trimEnd p text = text := by
  rw [← List.head?_reverse] at kept
  have unchanged : text.reverse.dropWhile p = text.reverse := by
    cases backwards : text.reverse with
    | nil => rfl
    | cons last others =>
      rw [backwards] at kept
      exact List.dropWhile_cons_of_neg (by simp [kept last rfl])
  rw [trimEnd, unchanged, List.reverse_reverse]

theorem trimEnd_before_trimmed (trimmed : ∀ c ∈ more, p c = true) : trimEnd p (text ++ more) = trimEnd p text := by
  rw [trimEnd, trimEnd, List.reverse_append, List.dropWhile_append_of_pos (by simpa using trimmed)]

theorem trimEnd_append (front : List Char) (kept : trimEnd p text ≠ []) :
    trimEnd p (front ++ text) = front ++ trimEnd p text := by
  obtain ⟨trailing, whole, trimmed⟩ := trimEnd_spec p text
  have last : ∀ c ∈ (front ++ trimEnd p text).getLast?, p c = false := by
    rw [List.getLast?_append, List.getLast?_eq_some_getLast kept, Option.some_or,
      ← List.getLast?_eq_some_getLast kept]
    exact last_of_trimmed p text
  calc trimEnd p (front ++ text)
      = trimEnd p (front ++ trimEnd p text ++ trailing) := by rw [List.append_assoc, ← whole]
    _ = trimEnd p (front ++ trimEnd p text) := trimEnd_before_trimmed trimmed
    _ = front ++ trimEnd p text := trimEnd_of_kept_last last

theorem trimEnd_of_all (trimmed : ∀ c ∈ text, p c = true) : trimEnd p text = [] := by
  rw [← List.nil_append text, trimEnd_before_trimmed trimmed]
  rfl

theorem trimEnd_of_kept {c : Char} (member : c ∈ text) (kept : p c = false) : trimEnd p text ≠ [] := by
  intro nothing
  obtain ⟨trailing, whole, trimmed⟩ := trimEnd_spec p text
  rw [nothing, List.nil_append] at whole
  rw [trimmed c (whole ▸ member)] at kept
  cases kept

end TrimEnd

end CloudTerminal.Text
