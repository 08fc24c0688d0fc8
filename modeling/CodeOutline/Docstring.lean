/-
CodeOutline/Docstring.lean

Docstrings: text with named sections and fields.

An unindented line `Name:` with a known name opens a section.  In sections of parameters,
attributes and errors every least indented line `name (type): text` opens an entry of its own;
the other sections are one entry each.  An unindented line `:field argument: text` is an entry
too.  An indented line goes on with the entry that is open; any other unindented line belongs to
the description and closes the section.

A field whose argument consists of blanks only names nothing: reading it fails.
-/
import CodeOutline.Entity.Documentation
import CodeOutline.Text.Category
import CodeOutline.Text.Lines

namespace CodeOutline.Docstring

open Text

/-- Why a docstring cannot be read. -/
inductive Failure where
  /-- A field has an argument without a word. -/
  | blankArgument
  | tag (e : ArgumentError)
  deriving DecidableEq, Repr

/-- The wording of a failure. -/
def Failure.message : Failure → String
  | .blankArgument => "list index out of range"
  | .tag e => e.message

/-! ### Names -/

/-- The tag that a section, given in lowercase, is about. -/
def sectionTag? (name : String) : Option String :=
  match name with
  | "args" | "arguments" | "parameters" | "params" | "other parameters" => some "param"
  | "keyword args" | "keyword arguments" => some "keyword"
  | "attributes" => some "attribute"
  | "returns" | "return" => some "return"
  | "yields" | "yield" => some "yield"
  | "raises" => some "raises"
  | "example" | "examples" => some "example"
  | "note" | "notes" => some "note"
  | "see also" => some "see"
  | "todo" => some "todo"
  | "warning" | "warnings" => some "warning"
  | _ => none

/-- The tag that a field is about. -/
def fieldTag (name : String) : String :=
  match name with
  | "arg" | "argument" | "parameter" => "param"
  | "key" => "keyword"
  | "returns" => "return"
  | "raise" | "except" | "exception" => "raises"
  | "ivar" | "cvar" | "var" => "attribute"
  | _ => name

/-- Tags with an entry for each thing they name. -/
def isNamedSection (tag : String) : Bool :=
  ["param", "keyword", "attribute", "raises"].contains tag

/-! ### Forms of lines -/

/-- A text after a colon: nothing, or blanks and then the text. -/
def afterColon? : List Char → Option (List Char)
  | [] => some []
  | c :: cs => if isBlank c then some (trimLeft (c :: cs)) else none

/-- The tag of the section that a trimmed line opens. -/
def header? (line : List Char) : Option String :=
  match line.reverse with
  | ':' :: back =>
    match back.reverse with
    | [] => none
    | c :: cs =>
      if c.isAlpha && cs.all (fun c => c.isAlpha || c == ' ') then
        sectionTag? (String.ofList ((trim (c :: cs)).map Char.toLower))
      else none
  | _ => none

/-- Name, argument and text of the field in a trimmed line.  The argument is kept as it stands
after the blanks in front of it; an argument of blanks is at least two of them, of which it keeps
one. -/
def field? : List Char → Option (List Char × Option (List Char) × List Char)
  | ':' :: cs =>
    match cs.takeWhile isWordChar, cs.dropWhile isWordChar with
    | [], _ => none
    | name, ':' :: rest => (afterColon? rest).map (fun text => (name, none, text))
    | name, rest =>
      let inner := rest.takeWhile (· != ':')
      match inner, rest.dropWhile (· != ':') with
      | b :: more, _ :: rest =>
        if isBlank b then
          match trimLeft more, more with
          | [], [] => none
          | [], _ => (afterColon? rest).map (fun text => (name, some [' '], text))
          | argument, _ => (afterColon? rest).map (fun text => (name, some argument, text))
        else none
      | _, _ => none
  | _ => none

/-- The text after an optional type in round brackets, and the type. -/
def bracketed? (cs : List Char) : Option (List Char) × List Char :=
  match cs with
  | '(' :: rest =>
    match rest.dropWhile (· != ')') with
    | _ :: after => (some (rest.takeWhile (· != ')')), after)
    | [] => (none, cs)
  | _ => (none, cs)

/-- Name, type and text of the entry in a trimmed line.  The name may have two stars in front,
which are not part of it. -/
def entry? (line : List Char) : Option (List Char × Option (List Char) × List Char) :=
  let unstarred := match line with
    | '*' :: '*' :: cs => cs
    | '*' :: cs => cs
    | cs => cs
  let isNamePart (c : Char) := isWordChar c || c == '.'
  match unstarred.takeWhile isNamePart with
  | [] => none
  | name =>
    let (type, rest) := bracketed? (trimLeft (unstarred.dropWhile isNamePart))
    match trimLeft rest with
    | ':' :: rest => (afterColon? rest).map (fun text => (name, type, text))
    | _ => none

/-! ### Entries -/

/-- A tag under construction. -/
structure Entry where
  tag : String
  attributes : List (String × String)
  lines : List (List Char)

/-- An entry with one line more. -/
def Entry.add (e : Entry) (line : List Char) : Entry := { e with lines := e.lines ++ [line] }

/-- The tag of an entry. -/
def Entry.build (e : Entry) : Except ArgumentError DocumentationTag :=
  DocumentationTag.make e.tag (String.ofList (joinTrimmed e.lines)) e.attributes

/-- The entry a field opens: the last word of the argument is a name, the others are its type. -/
def fieldEntry (name : List Char) (argument : Option (List Char)) (text : List Char) :
    Except Failure Entry :=
  let tag := fieldTag (String.ofList name)
  match argument with
  | none => .ok ⟨tag, [], [text]⟩
  | some argument =>
    match (words argument).reverse with
    | [] => .error .blankArgument
    | [word] => .ok ⟨tag, [("name", String.ofList word)], [text]⟩
    | word :: types =>
      .ok ⟨tag, [("name", String.ofList word),
        ("type", String.ofList ([' '].intercalate types.reverse))], [text]⟩

/-- The entry a line of a section opens. -/
def sectionEntry (tag : String) (name : List Char) (type : Option (List Char))
    (text : List Char) : Entry :=
  let name := ("name", String.ofList name)
  match type with
  | none | some [] => ⟨tag, [name], [text]⟩
  | some type => ⟨tag, [name, ("type", String.ofList (trim type))], [text]⟩

/-! ### Reading -/

/-- What is known after some lines. -/
structure State where
  description : List (List Char) := []
  finished : List Entry := []
  /-- The entry that is open. -/
  current : Option Entry := none
  /-- The tag of the section that is open. -/
  openSection : Option String := none
  /-- The indentation of the first entry of the section. -/
  itemIndent : Option Nat := none

namespace State

/-- All entries, the open one last. -/
def entries (s : State) : List Entry := s.finished ++ s.current.toList

/-- No entry is open. -/
def close (s : State) : State := { s with finished := s.entries, current := none }

/-- An entry is opened. -/
def start (s : State) (e : Entry) : State :=
  { s with finished := s.entries, current := some e }

/-- A line goes to the description. -/
def describe (s : State) (line : List Char) : State :=
  { s with description := s.description ++ [line] }

/-- A line goes to the open entry, if there is one. -/
def proceed (s : State) (line : List Char) : State :=
  { s with current := s.current.map (·.add line) }

end State

/-- A line without indentation. -/
def readFlush (s : State) (line : List Char) : Except Failure State :=
  match header? (trim line) with
  | some tag =>
    let s := { s.close with openSection := some tag, itemIndent := none }
    .ok (if isNamedSection tag then s else s.start ⟨tag, [], []⟩)
  | none =>
    match field? (trim line) with
    | some (name, argument, text) => do
      let e ← fieldEntry name argument text
      return { s with openSection := none }.start e
    | none => .ok ({ s.close with openSection := none }.describe (trimRight line))

/-- An indented line. -/
def readIndented (s : State) (line : List Char) : State :=
  let text := trim line
  match s.openSection with
  | some tag =>
    if isNamedSection tag then
      let first := s.itemIndent.getD (indentation line)
      let s := { s with itemIndent := some first }
      match if indentation line ≤ first then entry? text else none with
      | some (name, type, value) => s.start (sectionEntry tag name type value)
      | none => s.proceed text
    else if s.current.isSome then s.proceed text
    else s.describe (trimRight line)
  | none => if s.current.isSome then s.proceed text else s.describe (trimRight line)

/-- A line without text. -/
def readBlank (s : State) : State :=
  if s.current.isSome then s.proceed []
  else if s.finished.isEmpty then s.describe []
  else s

/-- One more line. -/
def readLine (s : State) (line : List Char) : Except Failure State :=
  if line.all isBlank then .ok (readBlank s)
  else if indentation line = 0 then readFlush s line
  else .ok (readIndented s line)

/-- The lines of a docstring. -/
def linesOf (text : String) : List (List Char) := splitLines (expandTabs text.toList)

/-- What is known after all lines of a docstring. -/
def read (text : String) : Except Failure State := (linesOf text).foldlM readLine {}

/-- The documentation in a docstring. -/
def parse (text : String) (position : Option Position) : Except Failure Documentation := do
  let s ← read text
  let tags ← (s.entries.mapM Entry.build).mapError .tag
  (Documentation.make .docstring (String.ofList (joinTrimmed s.description)) position
    tags).mapError .tag

end CodeOutline.Docstring
