/-
CodeOutline/Java/TypeName.lean

Names of types, with and without their arguments.
-/
import CodeOutline.Text.Blank
import CodeOutline.Text.Lines

namespace CodeOutline.Java

/-- The characters outside angle brackets, `depth` of which are open, blanks left out.  A closing
bracket without an opening one says nothing. -/
def eraseFrom (depth : Nat) : List Char → List Char
  | [] => []
  | c :: cs =>
    if c = '<' then eraseFrom (depth + 1) cs
    else if c = '>' then eraseFrom (depth - 1) cs
    else if depth = 0 && !Text.isBlank c then c :: eraseFrom depth cs
    else eraseFrom depth cs

/-- A type name without its arguments and without blanks. -/
def eraseArguments (name : List Char) : List Char := eraseFrom 0 name

/-- The text after the last dot. -/
def lastSegment (name : List Char) : List Char := (Text.splitOn '.' name).getLastD []

/-- The last part of a type name, without its arguments. -/
def simpleName (name : List Char) : List Char := lastSegment (eraseArguments name)

end CodeOutline.Java
