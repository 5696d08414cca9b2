import CloudTerminal.Text.Base64
import CloudTerminal.Text.Blank

/-!
Base64 texts read back. A text is read by the values of its digits in groups of four (`decode`). Writing gives
the bytes in sextets, which are the values of the digits (`encode_eq_digits`), and three bytes can be put
together again from their four sextets (`bytes_of_sextets`), so that what is written is read as the bytes that
it was written from (`decode_encode`). Only a last group of fewer than three bytes is filled up
(`whole_groups_are_not_padded`).
-/

namespace CloudTerminal.Text.Base64

def value? (c : Char) : Option Nat := alphabet.idxOf? c

/-- The bytes in groups of four sextets. The last group may have fewer, and what is left over in it is zero. -/
def ofSextets : List Nat → Option (List UInt8)
  | [] => some []
  | [_] => none
  | [a, b] => if b % 16 = 0 then some [(a * 4 + b / 16).toUInt8] else none
  | [a, b, c] =>
    if c % 4 = 0 then some [(a * 4 + b / 16).toUInt8, (b % 16 * 16 + c / 4).toUInt8] else none
  | a :: b :: c :: d :: rest =>
    (ofSextets rest).map fun bytes =>
      (a * 4 + b / 16).toUInt8 :: (b % 16 * 16 + c / 4).toUInt8 :: (c % 4 * 64 + d).toUInt8 :: bytes

/-- The bytes of a base64 text. Equals signs fill its last group up to four characters, of which at least two
are digits. -/
def decode (text : List Char) : Option (List UInt8) :=
  let digits := trimEnd (· == '=') text
  if text.length % 4 = 0 ∧ text.length ≤ digits.length + 2 then (digits.mapM value?).bind ofSextets else none

/-- The sextets of some bytes, the last one filled up with zeros. -/
def sextets : List UInt8 → List Nat
  | [] => []
  | [x] => [x.toNat / 4, x.toNat * 16 % 64]
  | [x, y] => [x.toNat / 4, (x.toNat * 16 + y.toNat / 16) % 64, y.toNat * 4 % 64]
  | x :: y :: z :: rest =>
    x.toNat / 4 :: (x.toNat * 16 + y.toNat / 16) % 64 :: (y.toNat * 4 + z.toNat / 64) % 64 :: z.toNat % 64 ::
      sextets rest

/-- Each of the sixty-four digits is read back as the number that it stands for. -/
theorem value_of_digit : ∀ n < 64, value? (digit n) = some n := by decide +kernel

theorem digit_is_in_the_alphabet (n : Nat) : digit n ∈ alphabet := by
  have inside : n % 64 < alphabet.length := Nat.mod_lt n (by decide)
  rw [digit, List.getD_eq_getElem?_getD, List.getElem?_eq_getElem inside]
  exact List.getElem_mem inside

theorem padding_is_no_digit : '=' ∉ alphabet := by decide +kernel

theorem digit_mod (n : Nat) : digit (n % 64) = digit n := by
  rw [digit, digit, Nat.mod_mod]

theorem sextets_are_small (bytes : List UInt8) : ∀ n ∈ sextets bytes, n < 64 := by
  fun_induction sextets bytes with
  | case1 => simp
  | case2 x =>
    have := x.toNat_lt
    simp only [List.forall_mem_cons, List.not_mem_nil, false_imp_iff, implies_true, and_true]
    omega
  | case3 x y =>
    have := x.toNat_lt
    simp only [List.forall_mem_cons, List.not_mem_nil, false_imp_iff, implies_true, and_true]
    omega
  | case4 x y z rest ih =>
    have := x.toNat_lt
    simp only [List.forall_mem_cons]
    exact ⟨by omega, by omega, by omega, by omega, ih⟩

theorem values_of_digits {numbers : List Nat} (small : ∀ n ∈ numbers, n < 64) :
    (numbers.map digit).mapM value? = some numbers := by
  induction numbers with
  | nil => rfl
  | cons n rest ih =>
    obtain ⟨first, others⟩ := List.forall_mem_cons.mp small
    rw [List.map_cons, List.mapM_cons, value_of_digit n first, ih others]
    rfl

/-- Base64 writes the sextets as digits and fills up the last group. -/
theorem encode_eq_digits (bytes : List UInt8) :
    encode bytes = (sextets bytes).map digit ++ List.replicate (2 * bytes.length % 3) '=' := by
  fun_induction sextets bytes with
  | case1 => rfl
  | case2 x => simp [encode, digit_mod]
  | case3 x y => simp [encode, digit_mod]
  | case4 x y z rest ih =>
    have padding : 2 * (x :: y :: z :: rest).length % 3 = 2 * rest.length % 3 := by
      simp only [List.length_cons]
      omega
    rw [encode, ih, padding]
    simp [digit_mod]

section Groups

variable (x y z : UInt8)

theorem byte_of_its_number {n : Nat} (same : n = x.toNat) : n.toUInt8 = x := by
  rw [same]
  exact UInt8.ofNat_toNat

/-- The first byte lies in the first sextet and in the two upper bits of the second. -/
theorem first_byte_of_sextets : (x.toNat / 4 * 4 + (x.toNat * 16 + y.toNat / 16) % 64 / 16).toUInt8 = x := by
  have := x.toNat_lt
  have := y.toNat_lt
  exact byte_of_its_number x (by omega)

/-- The second byte is shared by the second and the third sextet, with four bits in each. -/
theorem second_byte_of_sextets :
    ((x.toNat * 16 + y.toNat / 16) % 64 % 16 * 16 + (y.toNat * 4 + z.toNat / 64) % 64 / 4).toUInt8 = y := by
  have := y.toNat_lt
  have := z.toNat_lt
  exact byte_of_its_number y (by omega)

theorem third_byte_of_sextets : ((y.toNat * 4 + z.toNat / 64) % 64 % 4 * 64 + z.toNat % 64).toUInt8 = z := by
  have := z.toNat_lt
  exact byte_of_its_number z (by omega)

end Groups

/-- Sextets can be put together to the bytes that they were cut from, in groups of three and with one or two
bytes left over. -/
theorem bytes_of_sextets (bytes : List UInt8) : ofSextets (sextets bytes) = some bytes := by
  fun_induction sextets bytes with
  | case1 => rfl
  | case2 x =>
    -- The sextets of a byte are those of the byte in front of a zero.
    have first := first_byte_of_sextets x 0
    have filled : x.toNat * 16 % 64 % 16 = 0 := by omega
    rw [ofSextets, if_pos filled]
    simpa using first
  | case3 x y =>
    have first := first_byte_of_sextets x y
    have second := second_byte_of_sextets x y 0
    have filled : y.toNat * 4 % 64 % 4 = 0 := by omega
    rw [ofSextets, if_pos filled]
    simpa [first] using second
  | case4 x y z rest ih =>
    rw [ofSextets, ih, first_byte_of_sextets, second_byte_of_sextets, third_byte_of_sextets]
    rfl

/-- What is written is read as the bytes that it was written from. -/
theorem decode_encode (bytes : List UInt8) : decode (encode bytes) = some bytes := by
  have digits : trimEnd (· == '=') (encode bytes) = (sextets bytes).map digit := by
    rw [encode_eq_digits, trimEnd_before_trimmed (by simp)]
    refine trimEnd_of_kept_last fun c last => ?_
    obtain ⟨n, -, rfl⟩ := List.mem_map.mp (List.mem_of_getLast? last)
    exact beq_false_of_ne fun padding => padding_is_no_digit (padding ▸ digit_is_in_the_alphabet n)
  have whole : (encode bytes).length % 4 = 0 := by
    rw [length_encode]
    omega
  have padding : (encode bytes).length ≤ ((sextets bytes).map digit).length + 2 := by
    rw [encode_eq_digits, List.length_append, List.length_replicate]
    omega
  simp only [decode, digits]
  rw [if_pos ⟨whole, padding⟩, values_of_digits (sextets_are_small bytes), Option.bind_some, bytes_of_sextets]

/-- Bytes in groups of three are written in digits alone. -/
theorem whole_groups_are_not_padded {bytes : List UInt8} (whole : bytes.length % 3 = 0) :
    ∀ c ∈ encode bytes, c ∈ alphabet := by
  have none_left : 2 * bytes.length % 3 = 0 := by omega
  rw [encode_eq_digits, none_left, List.replicate_zero, List.append_nil]
  exact List.forall_mem_map.mpr fun n _ => digit_is_in_the_alphabet n

end CloudTerminal.Text.Base64
