import CloudTerminal.Text.Numeral
import CloudTerminal.Text.Split

/-!
Numbers as TOML writes them. Digits may be grouped by single underscores, integers have sixty-four bits, and
a positive decimal number that no finite double is nearest to is refused.
-/

namespace CloudTerminal.Toml.Number

/-- Whether a text consists of groups of digits with single underscores between them. -/
def isGrouped (base : Nat) (text : List Char) : Bool :=
  (Text.splitAll (· == '_') text).all fun group => (Text.readDigits? base group).isSome

/-- The digits of a grouped text. -/
def ungroup (text : List Char) : List Char := text.filter (· != '_')

/-- Reads a number whose digits may be grouped. -/
def readGrouped? (base : Nat) (text : List Char) : Option Nat :=
  if isGrouped base text then Text.readDigits? base (ungroup text) else none

/-- Whether a text begins with a zero that is not all of it. -/
def hasLeadingZero : List Char → Bool
  | '0' :: _ :: _ => true
  | _ => false

/-- Reads a decimal number without leading zeros. -/
def readDecimal? (text : List Char) : Option Nat :=
  if hasLeadingZero text then none else readGrouped? 10 text

/-- Takes a sign off a text, and tells whether it is a minus sign. -/
def cutSign : List Char → Bool × List Char
  | '+' :: rest => (false, rest)
  | '-' :: rest => (true, rest)
  | text => (false, text)

/-- A number with its sign. -/
def signed (negative : Bool) (n : Nat) : Int := if negative then -(n : Int) else n

/-- Reads an integer: a decimal one with or without a sign, or one in another base without a sign. -/
def readInteger? (text : List Char) : Option Int :=
  let number : Option Int :=
    match text with
    | '0' :: 'x' :: digits => (readGrouped? 16 digits).map Int.ofNat
    | '0' :: 'o' :: digits => (readGrouped? 8 digits).map Int.ofNat
    | '0' :: 'b' :: digits => (readGrouped? 2 digits).map Int.ofNat
    | _ => (readDecimal? (cutSign text).2).map (signed (cutSign text).1)
  number.filter fun n => Int64.minValue.toInt ≤ n && n ≤ Int64.maxValue.toInt

/-- The least number that no finite double is nearest to. -/
def overflow : Nat := (1 <<< 1024) - (1 <<< 970)

/-- Whether the number with these decimal digits, multiplied by a power of ten, reaches `overflow`. An
exponent that decides the matter by itself is not computed with. -/
def overflows (digits : List Char) (exponent : Int) : Bool :=
  match Text.readDigits? 10 digits, exponent with
  | none, _ => false
  | some n, .ofNat e => n != 0 && (310 ≤ e || overflow ≤ n * Nat.pow 10 e)
  | some n, .negSucc e => e + 1 < digits.length && overflow * Nat.pow 10 (e + 1) ≤ n

/-- Reads the exponent of a decimal number. -/
def readExponent? (text : List Char) : Option Int :=
  (readGrouped? 10 (cutSign text).2).map (signed (cutSign text).1)

/-- Whether a text, taken without its sign, is a decimal number with a fraction, an exponent or both. -/
def isDecimal (negative : Bool) (text : List Char) : Bool :=
  let isMark (c : Char) : Bool := c == 'e' || c == 'E'
  let mantissa := Text.beforeFirst isMark text
  let whole := Text.beforeFirst (· == '.') mantissa
  let fraction? := (Text.cutFirst (· == '.') mantissa).map (·.2)
  let exponent? := (Text.cutFirst isMark text).map (·.2)
  let fraction := fraction?.getD []
  (fraction?.isSome || exponent?.isSome) && (readDecimal? whole).isSome &&
    fraction?.all (isGrouped 10) &&
    match exponent?.elim (some 0) readExponent? with
    | none => false
    | some exponent =>
      negative ||
        !overflows (ungroup whole ++ ungroup fraction) (exponent - (ungroup fraction).length)

/-- Whether a text is a number other than an integer. -/
def isFloat (text : List Char) : Bool :=
  let (negative, magnitude) := cutSign text
  magnitude == ['i', 'n', 'f'] || magnitude == ['n', 'a', 'n'] || isDecimal negative magnitude

example : readInteger? ['1', '_', '0', '0'] = some 100 := by decide +kernel
example : readInteger? ['0', '7'] = none := by decide +kernel
example : isFloat ['6', '.', '2', 'e', '-', '3'] = true := by decide +kernel

end CloudTerminal.Toml.Number
