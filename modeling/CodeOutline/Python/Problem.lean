/-
CodeOutline/Python/Problem.lean

What goes wrong before there is a syntax tree.

The parser takes text, so a file is decoded first.  Whatever the encoding of the file was, the
places in its tree refer to the text in UTF-8.
-/
import CodeOutline.Python.Tree
import CodeOutline.Source.Parsed
import CodeOutline.Text.Encoding

namespace CodeOutline.Python

/-- A complaint about a text. -/
inductive Problem where
  /-- The text breaks off from the grammar, possibly at a known line and column. -/
  | misplaced (line column : Option Int) (message : String)
  /-- The text holds what no source may hold. -/
  | forbidden (message : String)
  | undecodable (path : Path) (cause : Text.DecodingError)
  deriving Repr

/-- A number that is known and not zero, or one. -/
def numberOrOne : Option Int → Int
  | some n => if n = 0 then 1 else n
  | none => 1

/-- The wording of a complaint. -/
def Problem.message : Problem → String
  | .misplaced line column message =>
    s!"Syntax error at line {numberOrOne line}, column {numberOrOne column}: {message}"
  | .forbidden message => s!"Syntax error: {message}"
  | .undecodable path cause => s!"Cannot decode {path.text}: {cause.message}"

/-- A parser of texts, some of which come from a file. -/
abbrev Parser := Option Path → List Char → Except Problem Node

/-- What the parser made of a text. -/
def parsedText (parser : Parser) (path : Option Path) (text : List Char) : Parsed Node :=
  let source := Text.Utf8.encode text
  match parser path text with
  | .ok tree => ⟨path, source, some tree, []⟩
  | .error problem => ⟨path, source, none, [problem.message]⟩

/-- What the parser made of the octets of a file. -/
def parsedFile (parser : Parser) (path : Path) (source : Text.Utf8.Octets) : Parsed Node :=
  match Text.decodeSource source with
  | .ok text => parsedText parser (some path) text
  | .error cause => ⟨some path, source, none, [(Problem.undecodable path cause).message]⟩

end CodeOutline.Python
