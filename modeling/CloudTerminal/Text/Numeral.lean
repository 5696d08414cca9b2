/-!
Numerals as texts: digits of a fixed width in a base of at most sixteen, and readers for unsigned numbers.
Numbers of any width are written in decimal by `toString`.
-/

namespace CloudTerminal.Text

/-- The last `width` digits of `n` in the base, most significant first and padded with zeros. -/
def paddedDigits (base : Nat) : Nat → Nat → List Char
  | 0, _ => []
  | width + 1, n => paddedDigits base width (n / base) ++ [(n % base).digitChar]

/-- The last `width` hexadecimal digits of `n`, in lowercase. -/
def hexDigits (width n : Nat) : List Char := paddedDigits 16 width n

/-- The value of a hexadecimal digit in either case. -/
def hexValue? (c : Char) : Option Nat :=
  if '0' ≤ c ∧ c ≤ '9' then some (c.toNat - '0'.toNat)
  else if 'a' ≤ c ∧ c ≤ 'f' then some (c.toNat - 'a'.toNat + 10)
  else if 'A' ≤ c ∧ c ≤ 'F' then some (c.toNat - 'A'.toNat + 10)
  else none

/-- The value of a digit in the given base, which is at most sixteen. -/
def digitValue? (base : Nat) (c : Char) : Option Nat := (hexValue? c).filter (· < base)

/-- The number that a list of digit values denotes, most significant first. -/
def ofDigits (base : Nat) (digits : List Nat) : Nat := digits.foldl (fun n d => n * base + d) 0

/-- Reads a text of one or more digits of the base, and nothing else. -/
def readDigits? (base : Nat) (text : List Char) : Option Nat :=
  if text.isEmpty then none else (text.mapM (digitValue? base)).map (ofDigits base)

/-- Reads a number as `readDigits?` does, after an optional plus sign. -/
def readUnsigned? (text : List Char) : Option Nat :=
  match text with
  | '+' :: digits => readDigits? 10 digits
  | digits => readDigits? 10 digits

@[simp] theorem length_paddedDigits (base width n : Nat) :
    (paddedDigits base width n).length = width := by
  induction width generalizing n with
  | zero => rfl
  | succ width ih => simp [paddedDigits, ih]

example : hexDigits 5 255 = ['0', '0', '0', 'f', 'f'] := by decide
example : readUnsigned? ['+', '0', '8', '0'] = some 80 := by decide
example : readUnsigned? ['+'] = none := by decide

end CloudTerminal.Text
