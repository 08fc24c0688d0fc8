/-
CodeOutline/Path.lean

File paths.

A path is an anchor and the names between its slashes; empty names and single dots say nothing and
are dropped when a path is read, double dots stay until it is resolved.  Resolving needs only the
working directory: no name is taken for a link.
-/
import CodeOutline.Text.Lines
import CodeOutline.Text.Lowercase
import CodeOutline.Text.Quoted

namespace CodeOutline

/-- What stands in front of the names of a path. -/
inductive Path.Anchor where
  | relative
  | root
  /-- Exactly two slashes, which are kept apart from one. -/
  | doubleRoot
  deriving DecidableEq, Repr, Inhabited

/-- The text of an anchor. -/
def Path.Anchor.text : Path.Anchor → String
  | .relative => ""
  | .root => "/"
  | .doubleRoot => "//"

/-- A file path. -/
structure Path where
  anchor : Path.Anchor
  parts : List String
  deriving DecidableEq, Repr, Inhabited

namespace Path

/-! ### Reading and writing -/

/-- The anchor a text starts with. -/
def anchorOf : List Char → Anchor
  | '/' :: '/' :: '/' :: _ => .root
  | '/' :: '/' :: _ => .doubleRoot
  | '/' :: _ => .root
  | _ => .relative

/-- The path a text names. -/
def ofString (s : String) : Path where
  anchor := anchorOf s.toList
  parts := ((Text.splitOn '/' s.toList).map String.ofList).filter (fun p => p != "" && p != ".")

/-- The text of a path; a path without names is the current directory. -/
def text (p : Path) : String :=
  match p.anchor, p.parts with
  | .relative, [] => "."
  | a, parts => a.text ++ "/".intercalate parts

/-- The path as messages show it. -/
def describe (p : Path) : String := s!"PosixPath({Text.quoted p.text})"

/-! ### Names -/

/-- The last name, or nothing. -/
def name (p : Path) : String := p.parts.getLastD ""

/-- The path without its last name. -/
def parent (p : Path) : Path := { p with parts := p.parts.dropLast }

/-- A name up to its last dot, with it, and what follows. -/
def splitAtLastDot (name : String) : List Char × List Char :=
  let back := name.toList.reverse
  ((back.dropWhile (· != '.')).reverse, (back.takeWhile (· != '.')).reverse)

/-- The text after the last dot of the name, in lowercase.  A dot in front of the whole name
starts no extension. -/
def extension (p : Path) : String :=
  match splitAtLastDot p.name with
  | (_ :: _ :: _, ext) => String.ofList (Text.lower ext)
  | _ => ""

/-- A name without its suffix: the part from the last dot on, unless that dot is the first or the
last character. -/
def dropSuffix (name : String) : String :=
  match splitAtLastDot name with
  | (a :: b :: stem, _ :: _) => String.ofList (a :: b :: stem).dropLast
  | _ => name

/-- The path with the suffix of its last name cut off; none for a path without names. -/
def withoutSuffix? (p : Path) : Option Path :=
  match p.parts.getLast? with
  | none => none
  | some name => some { p with parts := p.parts.dropLast ++ [dropSuffix name] }

/-! ### Resolving -/

/-- Goes through one name from a place, which is given by its names from the root. -/
def enter (place : List String) (name : String) : List String :=
  if name = ".." then place.dropLast else place ++ [name]

/-- The names from the root to the place a path leads to. -/
def resolve (workingDirectory : List String) (p : Path) : List String :=
  match p.anchor with
  | .relative => p.parts.foldl enter workingDirectory
  | _ => p.parts.foldl enter []

/-- The names that lead from one place to another one below it. -/
def below? (place target : List String) : Option (List String) :=
  if place.isPrefixOf target then some (target.drop place.length) else none

/-- Whether every name can be that of a file: none holds a null character. -/
def isNameable (p : Path) : Bool := p.parts.all (fun s => !s.toList.contains '\x00')

theorem below?_append (place rest : List String) : below? place (place ++ rest) = some rest := by
  simp [below?]

end Path

end CodeOutline
