/-!
Base64 with the standard alphabet and padding: three bytes become four characters, and a last group of one
or two bytes is filled up with equals signs.
-/

namespace CloudTerminal.Text.Base64

/-- The sixty-four digits in order of their values. -/
def alphabet : List Char :=
  "ABCDEFGHIJKLMNOPQRSTUVWXYZabcdefghijklmnopqrstuvwxyz0123456789+/".toList

/-- The digit of a value, which is taken modulo sixty-four. -/
def digit (value : Nat) : Char := alphabet.getD (value % 64) 'A'

/-- The base64 text of a list of bytes. -/
def encode : List UInt8 → List Char
  | [] => []
  | [x] => [digit (x.toNat / 4), digit (x.toNat * 16), '=', '=']
  | [x, y] =>
    [digit (x.toNat / 4), digit (x.toNat * 16 + y.toNat / 16), digit (y.toNat * 4), '=']
  | x :: y :: z :: rest =>
    digit (x.toNat / 4) :: digit (x.toNat * 16 + y.toNat / 16) ::
      digit (y.toNat * 4 + z.toNat / 64) :: digit z.toNat :: encode rest

theorem length_encode (bytes : List UInt8) : (encode bytes).length = (bytes.length + 2) / 3 * 4 := by
  fun_induction encode bytes with
  | case1 => rfl
  | case2 => simp
  | case3 => simp
  | case4 x y z rest ih => simp only [List.length_cons, ih]; omega

end CloudTerminal.Text.Base64
