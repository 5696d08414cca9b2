import Mathlib.Algebra.Group.Nat.Defs
import CloudTerminal.Text.Numeral

/-!
Numerals. Below the power of the base that their width allows, the digits of a fixed width are the usual
numeral filled up with zeros (`padded_digits_fill_up_the_numeral`), and no two numbers share them. In decimal
every text of digits is read, as the number that it denotes (`read_decimal_iff`), and of the texts for a
number its numeral is the one without zeros in front (`numeral_iff_read_without_leading_zero`).
-/

namespace CloudTerminal.Text

/-- The sixteen digits that hexadecimal numerals are written with. -/
def hexAlphabet : List Char := "0123456789abcdef".toList

theorem digits_are_distinct : ∀ m < 16, ∀ n < 16, m.digitChar = n.digitChar → m = n := by decide

theorem digit_is_hexadecimal : ∀ n < 16, n.digitChar ∈ hexAlphabet := by decide

variable {base width m n : Nat}

theorem padded_digits_are_hexadecimal : ∀ c ∈ paddedDigits 16 width n, c ∈ hexAlphabet := by
  induction width generalizing n with
  | zero => simp [paddedDigits]
  | succ width ih =>
    intro c member
    rcases List.mem_append.mp member with leading | last
    · exact ih c leading
    · obtain rfl := List.mem_singleton.mp last
      exact digit_is_hexadecimal _ (Nat.mod_lt n (by decide))

private theorem quotient_fits (positive : 0 < base) (fits : n < base ^ (width + 1)) :
    n / base < base ^ width := by
  rw [Nat.div_lt_iff_lt_mul positive]
  rwa [Nat.pow_succ] at fits

/-- Numbers that fit into the width are determined by their digits. -/
theorem padded_digits_determine_the_number (positive : 0 < base) (small : base ≤ 16)
    (left : m < base ^ width) (right : n < base ^ width)
    (same : paddedDigits base width m = paddedDigits base width n) : m = n := by
  induction width generalizing m n with
  | zero =>
    rw [Nat.pow_zero] at left right
    omega
  | succ width ih =>
    obtain ⟨leading, last⟩ := List.append_inj same (by simp)
    have quotients := ih (quotient_fits positive left) (quotient_fits positive right) leading
    have below : ∀ k, k % base < 16 := fun k => Nat.lt_of_lt_of_le (Nat.mod_lt k positive) small
    have remainders := digits_are_distinct _ (below m) _ (below n) (List.singleton_inj.mp last)
    rw [← Nat.div_add_mod m base, ← Nat.div_add_mod n base, quotients, remainders]

/-- A numeral of fixed width is the plain numeral with zeros in front, if the number fits. -/
theorem padded_digits_fill_up_the_numeral (base_ok : 1 < base) (fits : n < base ^ (width + 1)) :
    paddedDigits base (width + 1) n = (Nat.toDigits base n).leftpad (width + 1) '0' := by
  induction width generalizing n with
  | zero =>
    rw [Nat.zero_add, Nat.pow_one] at fits
    rw [Nat.toDigits_of_lt_base fits]
    simp [paddedDigits, Nat.mod_eq_of_lt fits]
  | succ width ih =>
    have leading := ih (quotient_fits (Nat.lt_of_succ_lt base_ok) fits)
    rw [paddedDigits, leading]
    by_cases short : n < base
    · rw [Nat.div_eq_of_lt short, Nat.mod_eq_of_lt short, Nat.toDigits_zero, Nat.toDigits_of_lt_base short]
      simp [List.leftpad, List.replicate_succ']
    · rw [Nat.toDigits_of_base_le base_ok (Nat.le_of_not_lt short)]
      simp [List.leftpad]

/-- The digits of the decimal system have the values that they are read with. -/
theorem decimal_digit_value (c : Char) : digitValue? 10 c =
    if c.isDigit then some (c.toNat - '0'.toNat) else none := by
  have range : c.isDigit = true ↔ '0' ≤ c ∧ c ≤ '9' := by
    simp only [Char.isDigit, Bool.and_eq_true, decide_eq_true_eq]
    rfl
  by_cases digit : '0' ≤ c ∧ c ≤ '9'
  · rw [if_pos (range.mpr digit), digitValue?, hexValue?, if_pos digit]
    have value : c.toNat - '0'.toNat < 10 := by
      have upper : c.toNat ≤ '9'.toNat := digit.2
      have zero : '9'.toNat = '0'.toNat + 9 := rfl
      omega
    simpa using value
  · rw [if_neg (mt range.mp digit), digitValue?, hexValue?, if_neg digit]
    split
    · simp
    · split <;> simp

/-- A text is read digit by digit exactly if all its characters are digits. -/
theorem decimal_digit_values (text : List Char) : text.mapM (digitValue? 10) =
    if text.all Char.isDigit then some (text.map fun c => c.toNat - '0'.toNat) else none := by
  induction text with
  | nil => rfl
  | cons c rest ih =>
    rw [List.mapM_cons, decimal_digit_value, ih, List.all_cons, List.map_cons]
    by_cases first : c.isDigit = true
    · by_cases others : rest.all Char.isDigit = true
      · simp only [first, others, if_true, Bool.and_self]
        rfl
      · simp only [first, others, if_true, Bool.and_false, Bool.false_eq_true, if_false]
        rfl
    · simp only [first, Bool.false_and, Bool.false_eq_true, if_false]
      rfl

/-- Any digits are read, and they stand for what they denote, also with zeros in front. -/
theorem read_decimal_iff {text : List Char} {n : Nat} : readDigits? 10 text = some n ↔
    text ≠ [] ∧ (∀ c ∈ text, c.isDigit = true) ∧ Nat.ofDigitChars 10 text 0 = n := by
  have denoted : ofDigits 10 (text.map fun c => c.toNat - '0'.toNat) = Nat.ofDigitChars 10 text 0 := by
    simp only [ofDigits, List.foldl_map, Nat.ofDigitChars, Nat.mul_comm]
  rw [← List.all_eq_true, readDigits?, decimal_digit_values, ← denoted]
  by_cases nothing : text = []
  · simp [nothing]
  · by_cases digits : text.all Char.isDigit = true
    · simp only [List.isEmpty_iff, nothing, digits, if_true, if_false, Option.map_some, Option.some.injEq, ne_eq,
        not_false_eq_true, true_and]
    · simp only [List.isEmpty_iff, nothing, digits, Bool.false_eq_true, if_false, Option.map_none, reduceCtorEq,
        false_and, and_false]

/-- A plus sign in front of the digits is passed over. -/
theorem read_unsigned_iff {text : List Char} {n : Nat} : readUnsigned? text = some n ↔
    ∃ digits, (text = digits ∨ text = '+' :: digits) ∧ readDigits? 10 digits = some n := by
  unfold readUnsigned?
  split
  · rename_i digits
    refine ⟨fun read => ⟨digits, .inr rfl, read⟩, ?_⟩
    rintro ⟨other, rfl | same, read⟩
    · have sign := (read_decimal_iff.mp read).2.1 '+' List.mem_cons_self
      exact absurd sign (by decide)
    · rwa [List.cons.inj same |>.2]
  · rename_i unsigned
    refine ⟨fun read => ⟨text, .inl rfl, read⟩, ?_⟩
    rintro ⟨digits, rfl | signed, read⟩
    · exact read
    · exact absurd signed (unsigned digits)

section Numerals

variable {text digits : List Char}

theorem digit_range {c : Char} (digit : c.isDigit = true) : '0'.toNat ≤ c.toNat ∧ c.toNat < '0'.toNat + 10 := by
  simp only [Char.isDigit, Bool.and_eq_true, decide_eq_true_eq, ge_iff_le, UInt32.le_iff_toNat_le] at digit
  exact ⟨digit.1, Nat.lt_succ_of_le digit.2⟩

theorem digit_of_its_value {c : Char} (digit : c.isDigit = true) : (c.toNat - '0'.toNat).digitChar = c := by
  obtain ⟨lower, upper⟩ := digit_range digit
  refine Char.toNat_inj.mp ?_
  rw [Nat.toNat_digitChar_of_lt_ten (by omega)]
  exact Nat.add_sub_of_le lower

theorem numeral_determines_the_number (same : Nat.toDigits 10 m = Nat.toDigits 10 n) : m = n := by
  have read := congrArg (fun digits => Nat.ofDigitChars 10 digits 0) same
  simpa using read

/-- Digits behind the numeral of a number that is not zero go on with it. -/
theorem numeral_goes_on (positive : 0 < n) (solid : ∀ c ∈ digits, c.isDigit = true) :
    Nat.toDigits 10 n ++ digits = Nat.toDigits 10 (Nat.ofDigitChars 10 digits n) := by
  induction digits generalizing n with
  | nil => rw [List.append_nil, Nat.ofDigitChars_nil]
  | cons c rest ih =>
    obtain ⟨digit, others⟩ := List.forall_mem_cons.mp solid
    have small : c.toNat - '0'.toNat < 10 := by
      have := digit_range digit
      omega
    have longer : Nat.toDigits 10 n ++ [c] = Nat.toDigits 10 (10 * n + (c.toNat - '0'.toNat)) := by
      rw [← Nat.toDigits_append_toDigits (by decide) positive small, Nat.toDigits_of_lt_base small,
        digit_of_its_value digit]
    rw [Nat.ofDigitChars_cons, ← ih (by omega) others, ← longer, List.append_assoc, List.singleton_append]

theorem numeral_with_leading_zero (zero : (Nat.toDigits 10 n).head? = some '0') : n = 0 := by
  induction n using Nat.strongRecOn with
  | ind n ih =>
    by_cases single : n < 10
    · rw [Nat.toDigits_of_lt_base single] at zero
      have same : n.digitChar = '0' := by simpa using zero
      exact digits_are_distinct n (by omega) 0 (by decide) same
    · obtain ⟨first, others, leading⟩ := List.exists_cons_of_ne_nil (Nat.toDigits_ne_nil (n := n / 10) (b := 10))
      rw [Nat.toDigits_of_base_le (by decide) (by omega), leading] at zero
      have none_left := ih (n / 10) (by omega) (by rw [leading]; exact zero)
      omega

/-- The numeral of a number is the only text that is read as the number and does not begin with a zero, unless
the zero is all of it. -/
theorem numeral_iff_read_without_leading_zero :
    text = Nat.toDigits 10 n ↔ readDigits? 10 text = some n ∧ (text.head? = some '0' → text.length = 1) := by
  rw [read_decimal_iff]
  constructor
  · rintro rfl
    refine ⟨⟨Nat.toDigits_ne_nil, fun c => Nat.isDigit_of_mem_toDigits (by decide) (by decide),
      Nat.ofDigitChars_ten_toDigits⟩, fun zero => ?_⟩
    rw [numeral_with_leading_zero zero]
    rfl
  · rintro ⟨⟨filled, solid, rfl⟩, alone⟩
    obtain ⟨c, rest, rfl⟩ := List.exists_cons_of_ne_nil filled
    obtain ⟨digit, others⟩ := List.forall_mem_cons.mp solid
    by_cases zero : c = '0'
    · obtain rfl : rest = [] := by simpa using alone (by rw [zero]; rfl)
      rw [zero]
      rfl
    · have range := digit_range digit
      have positive : 0 < c.toNat - '0'.toNat := by
        have other : c.toNat ≠ '0'.toNat := fun same => zero (Char.toNat_inj.mp same)
        omega
      have goes_on := numeral_goes_on positive others
      rw [Nat.toDigits_of_lt_base (by omega), digit_of_its_value digit] at goes_on
      rw [Nat.ofDigitChars_cons, Nat.mul_zero, Nat.zero_add, ← goes_on, List.singleton_append]

end Numerals

end CloudTerminal.Text
