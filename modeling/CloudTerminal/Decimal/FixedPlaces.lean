import CloudTerminal.Text.Numeral

/-!
Floating-point numbers written with a fixed number of decimal places. The number is taken at its exact
binary value and rounded once, a half going to the even neighbour.
-/

namespace CloudTerminal.Decimal

/-- The quotient rounded to the nearest whole number, a half to the even one. -/
def roundHalfEven (num den : Nat) : Nat :=
  if 2 * (num % den) < den then num / den
  else if den < 2 * (num % den) then num / den + 1
  else num / den + num / den % 2

/-- The numerator of a finite number's magnitude over the denominator `2 ^ 1074`, which every finite
number has. -/
def scaledMagnitude (x : Float) : Nat :=
  let bits := x.toBits.toNat
  let exponent := (bits >>> 52) % 2048
  let fraction := bits % (1 <<< 52)
  if exponent = 0 then fraction else ((1 <<< 52) + fraction) <<< (exponent - 1)

/-- The text of a whole number of units, each the `places`-th negative power of ten. -/
def ofUnits (places units : Nat) : String :=
  toString (units / Nat.pow 10 places) ++ "." ++ String.ofList (Text.paddedDigits 10 places units)

/-- The magnitude of a finite number with `places` decimal places, one or more. -/
def fixed (places : Nat) (x : Float) : String :=
  ofUnits places (roundHalfEven (scaledMagnitude x * Nat.pow 10 places) (1 <<< 1074))

example : roundHalfEven 5 2 = 2 ∧ roundHalfEven 7 2 = 4 ∧ roundHalfEven 8 3 = 3 := by decide

end CloudTerminal.Decimal
