/-
CodeOutline/Javadoc.lean

Block comments with tags.

A comment opens with two stars after the slash.  Its lines are cleaned: the blanks in front, one
star and the space after it go, and so do the blanks at the end; all blanks in front go unless a
preformatted element is open.  A cleaned line of the form `@name text` opens a tag, which runs up
to the next one; the lines before the first tag are the description.
-/
import CodeOutline.Entity.Documentation
import CodeOutline.Text.Category
import CodeOutline.Text.Lines

namespace CodeOutline.Javadoc

open Text

/-- Whether a block comment is documentation.  The empty comment, which has two stars too, is
not. -/
def isJavadoc (comment : String) : Bool :=
  "/**".toList.isPrefixOf comment.toList && comment != "/**/"

/-! ### Cleaning -/

/-- The text between the opening and the closing of a comment; the closing may be missing. -/
def body (comment : List Char) : List Char :=
  let inner := comment.drop 3
  match inner.reverse with
  | '/' :: '*' :: rest => rest.reverse
  | _ => inner

/-- A line without the star in front of it and the blanks around that star. -/
def dropStar (line : List Char) : List Char :=
  match trimLeft line with
  | '*' :: ' ' :: rest => rest
  | '*' :: rest => rest
  | rest => rest

/-- Whether a text goes on with a word, in letters of either case. -/
def startsWith (word : String) (cs : List Char) : Bool :=
  word.toList.isPrefixOf ((cs.take word.length).map Char.toLower)

/-- Whether a preformatted element is opened right here. -/
def opensPre (cs : List Char) : Bool :=
  startsWith "<pre" cs &&
    match cs.drop 4 with
    | [] => false
    | c :: _ => c == '>' || isBlank c

/-- Whether a preformatted element is closed right here. -/
def closesPre (cs : List Char) : Bool :=
  startsWith "</pre" cs &&
    match trimLeft (cs.drop 5) with
    | [] => false
    | c :: _ => c == '>'

/-- Whether a preformatted element is open after a line, given whether one is open before it: the
last element opened or closed in the line decides. -/
def preAfter (pre : Bool) : List Char → Bool
  | [] => pre
  | c :: cs =>
    preAfter (if opensPre (c :: cs) then true else if closesPre (c :: cs) then false else pre) cs

/-- The cleaned lines of a comment, given whether a preformatted element is open before them. -/
def cleanFrom (pre : Bool) : List (List Char) → List (List Char)
  | [] => []
  | raw :: ls =>
    let line := trimRight (dropStar raw)
    (if pre then line else trimLeft line) :: cleanFrom (preAfter pre line) ls

/-- The cleaned lines of a comment. -/
def cleanLines (comment : String) : List (List Char) :=
  cleanFrom false (splitLines (body comment.toList))

/-! ### Tags -/

/-- The name of the tag that a line opens, and the text after it. -/
def blockTag? : List Char → Option (List Char × List Char)
  | '@' :: c :: cs =>
    if c.isAlpha then
      let isNamePart (c : Char) := isWordChar c || c == '.' || c == '-'
      let name := c :: cs.takeWhile isNamePart
      match cs.dropWhile isNamePart with
      | [] => some (name, [])
      | d :: rest => if isBlank d then some (name, trimLeft (d :: rest)) else none
    else none
  | _ => none

/-- Lines before the first tag, and the name and the lines of each tag. -/
def group : List (List Char) → List (List Char) × List (List Char × List (List Char))
  | [] => ([], [])
  | l :: ls =>
    let (head, tags) := group ls
    match blockTag? l with
    | some (name, text) => ([], (name, text :: head) :: tags)
    | none => (l :: head, tags)

/-- Tags whose first word names what they are about. -/
def isNamedTag (name : String) : Bool :=
  ["param", "throws", "exception", "serialField"].contains name

/-- The first word of a text and the trimmed rest. -/
def splitFirstWord (cs : List Char) : Option (List Char × List Char) :=
  match trimLeft cs with
  | [] => none
  | c :: rest =>
    let notBlank (c : Char) := !isBlank c
    some (c :: rest.takeWhile notBlank, trim (rest.dropWhile notBlank))

/-- The tag with a name and a content. -/
def tag (name content : String) : Except ArgumentError DocumentationTag :=
  if isNamedTag name then
    match splitFirstWord content.toList with
    | none => DocumentationTag.make name "" []
    | some (word, rest) =>
      DocumentationTag.make name (String.ofList rest) [("name", String.ofList word)]
  else DocumentationTag.make name content []

/-! ### Comments -/

/-- The documentation in a comment. -/
def parse (comment : String) (position : Option Position) :
    Except ArgumentError Documentation := do
  let (description, tags) := group (cleanLines comment)
  let tags ← tags.mapM
    (fun t => tag (String.ofList t.1) (String.ofList (joinTrimmed t.2)))
  Documentation.make .javadoc (String.ofList (joinTrimmed description)) position tags

end CodeOutline.Javadoc
