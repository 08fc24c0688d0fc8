/-
CodeOutline/Text/Lowercase.lean

The lowercase form of a text.

Every character is mapped by itself, with two exceptions: the dotted capital I becomes two
characters, and the form of a capital sigma depends on its surroundings.  It is the final one
exactly when a cased character stands before it and none after it, characters without any bearing
on case being skipped in both directions.
-/
import CodeOutline.Text.Category
import CodeOutline.Text.Table.Casing

namespace CodeOutline.Text

/-- The lowercase form of a code point, where it is a single one. -/
def lowerIn : List Table.CaseRun → Nat → Nat
  | [], n => n
  | r :: rs, n =>
    if n < r.first then n
    else if n ≤ r.last && (n - r.first) % r.step == 0 then
      if r.up then n + r.shift else n - r.shift
    else lowerIn rs n

/-- The lowercase form of a character on its own. -/
def lowerChar (c : Char) : List Char :=
  if c.toNat = 0x130 then ['i', Char.ofNat 0x307]
  else [Char.ofNat (lowerIn Table.caseRuns c.toNat)]

/-- Whether the first character that matters for case is a cased one. -/
def startsCased (cs : List Char) : Bool :=
  match cs.dropWhile (fun c => inBorders Table.caseIgnorable c.toNat) with
  | [] => false
  | c :: _ => inBorders Table.cased c.toNat

/-- The lowercase form of the text that follows `before`, which is given from its end. -/
def lowerAfter (before : List Char) : List Char → List Char
  | [] => []
  | c :: cs =>
    (if c = 'Σ' then [if startsCased before && !startsCased cs then 'ς' else 'σ'] else lowerChar c)
      ++ lowerAfter (c :: before) cs

/-- The lowercase form of a text. -/
def lower (cs : List Char) : List Char := lowerAfter [] cs

@[simp] theorem lower_nil : lower [] = [] := rfl

end CodeOutline.Text
