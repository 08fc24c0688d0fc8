/-
CodeOutline/Text/Lines.lean

Lines, tab stops and margins.

Two ways of cutting a text into lines are needed.  `splitLines` knows every line break of Unicode
and gives no empty line after a final break; `splitOn '\n'` cuts at one character only and gives
one piece more than there are cuts.  `cleanMargin` takes the common indentation off an indented
block of text whose first line starts in the middle of a line.
-/
import CodeOutline.Text.Blank

namespace CodeOutline.Text

/-! ### Cutting into lines -/

/-- The characters at which a line ends. -/
def isLineBreak (c : Char) : Bool :=
  let n := c.toNat
  (10 ≤ n && n ≤ 13) || (28 ≤ n && n ≤ 30) || n == 0x85 || n == 0x2028 || n == 0x2029

/-- The lines of a text without their breaks.  A carriage return and the line feed right after it
are one break. -/
def splitLines : List Char → List (List Char)
  | [] => []
  | '\r' :: '\n' :: cs => [] :: splitLines cs
  | c :: cs => if isLineBreak c then [] :: splitLines cs else joinFirst c (splitLines cs)

/-- The pieces of a text between the occurrences of a character. -/
def splitOn (sep : Char) : List Char → List (List Char)
  | [] => [[]]
  | c :: cs => if c = sep then [] :: splitOn sep cs else joinFirst c (splitOn sep cs)

@[simp] theorem splitLines_nil : splitLines [] = [] := rfl

theorem splitOn_ne_nil (sep : Char) (cs : List Char) : splitOn sep cs ≠ [] := by
  cases cs with
  | nil => simp [splitOn]
  | cons c cs =>
    rw [splitOn]
    split
    · simp
    · cases splitOn sep cs <;> simp [joinFirst]

/-- Joining the pieces by the character they were cut at gives the text back. -/
theorem intercalate_splitOn (sep : Char) (cs : List Char) :
    [sep].intercalate (splitOn sep cs) = cs := by
  induction cs with
  | nil => rfl
  | cons c cs ih =>
    rcases e : splitOn sep cs with - | ⟨l, ls⟩
    · exact absurd e (splitOn_ne_nil sep cs)
    · rw [splitOn]
      split
      · next h => rw [e] at ih ⊢; subst h; simp [List.intercalate, List.intersperse] at ih ⊢; exact ih
      · rw [e] at ih ⊢
        cases ls <;> simp_all [List.intercalate, List.intersperse, joinFirst]

/-! ### Tab stops -/

/-- Distance of two tab stops. -/
def tabWidth : Nat := 8

/-- Spaces in place of tabs, in a text that starts in the given column.  A line feed and a carriage
return start a new line; every other character takes one column. -/
def expandTabsFrom (column : Nat) : List Char → List Char
  | [] => []
  | c :: cs =>
    if c = '\t' then
      let gap := tabWidth - column % tabWidth
      List.replicate gap ' ' ++ expandTabsFrom (column + gap) cs
    else if c = '\n' || c = '\r' then c :: expandTabsFrom 0 cs
    else c :: expandTabsFrom (column + 1) cs

/-- Spaces in place of tabs. -/
def expandTabs (cs : List Char) : List Char := expandTabsFrom 0 cs

/-! ### Indentation -/

/-- The number of blanks in front of a line. -/
def indentation (line : List Char) : Nat := (line.takeWhile isBlank).length

/-- The smallest indentation of the lines that are not blank. -/
def margin? (ls : List (List Char)) : Option Nat :=
  ((ls.filter (fun l => !l.all isBlank)).map indentation).min?

/-- Drops the empty lines at both ends. -/
def dropOuterEmpty (ls : List (List Char)) : List (List Char) :=
  ((ls.dropWhile List.isEmpty).reverse.dropWhile List.isEmpty).reverse

/-- An indented block of text as it was meant: tabs expanded, the first line without its
indentation, the others without the margin they share, and no empty line at either end. -/
def cleanMargin (cs : List Char) : List Char :=
  match splitOn '\n' (expandTabs cs) with
  | [] => []
  | first :: rest =>
    let rest := match margin? rest with
      | some m => rest.map (List.drop m)
      | none => rest
    ['\n'].intercalate (dropOuterEmpty (trimLeft first :: rest))

end CodeOutline.Text
