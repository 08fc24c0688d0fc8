/-
CodeOutline/Text/Hex.lean

Digits in base 16, and octets written with two of them each.
-/

namespace CodeOutline.Text

/-- The value of a digit in base 16, in either letter case. -/
def hexValue? (c : Char) : Option Nat :=
  if '0' ≤ c && c ≤ '9' then some (c.toNat - 48)
  else if 'a' ≤ c && c ≤ 'f' then some (c.toNat - 87)
  else if 'A' ≤ c && c ≤ 'F' then some (c.toNat - 55)
  else none

/-- The octets that pairs of digits stand for. -/
def octetsOfHex? : List Char → Option (List UInt8)
  | [] => some []
  | [_] => none
  | a :: b :: cs => do
    let high ← hexValue? a
    let low ← hexValue? b
    let rest ← octetsOfHex? cs
    return UInt8.ofNat (high * 16 + low) :: rest

end CodeOutline.Text
