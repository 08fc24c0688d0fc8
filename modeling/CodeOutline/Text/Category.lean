/-
CodeOutline/Text/Category.lean

Classes of characters: letters, decimal digits, word characters, characters that can be shown.

The sets of code points are data of the tables under `Text/Table`; `inBorders` reads them.
-/
import CodeOutline.Text.Table.Letter
import CodeOutline.Text.Table.Number
import CodeOutline.Text.Table.Unprintable

namespace CodeOutline.Text

/-- Membership in the set with the given sorted borders: each border at or below the number
switches between outside and inside. -/
def inBorders : List Nat → Nat → Bool
  | [], _ => false
  | b :: bs, n => if n < b then false else !inBorders bs n

/-- Letters of any script. -/
def isLetter (c : Char) : Bool := inBorders Table.letters c.toNat

/-- Decimal digits of any script. -/
def isDecimalDigit (c : Char) : Bool := inBorders Table.decimals c.toNat

/-- Letters, numbers of any kind, and the underscore. -/
def isWordChar (c : Char) : Bool :=
  c == '_' || isLetter c || isDecimalDigit c || inBorders Table.numerals c.toNat

/-- Characters that quoted text shows as they are. -/
def isPrintable (c : Char) : Bool := !inBorders Table.unprintables c.toNat

end CodeOutline.Text
