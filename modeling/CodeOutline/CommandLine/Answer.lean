/-
CodeOutline/CommandLine/Answer.lean

What a command gives back: an exit code, what it prints, and its complaints.

Texts are markup, into which foreign text is put in escaped form.
-/
import CodeOutline.Report
import CodeOutline.Text.Markup

namespace CodeOutline.CommandLine

/-- A table of texts. -/
structure Table where
  title : String
  columns : List String
  rows : List (List String)
  deriving DecidableEq, Repr

/-- One thing that is printed. -/
inductive Output where
  | line (markup : String)
  | table (t : Table)
  deriving DecidableEq, Repr

/-- The result of a command. -/
structure Answer where
  exitCode : Nat := 0
  console : List Output := []
  errors : List String := []
  json : Option Json := none

/-- The result of a command that cannot be understood. -/
def Answer.misuse : Answer := { exitCode := 2 }

/-! ### Tables of definitions -/

/-- The text of a fact, if it is one that says something. -/
def factOr (m : Metadata) (key default : String) : String :=
  match m.text? key with
  | none => default
  | some s => if s == "" then default else s

/-- The row of a definition. -/
def definitionRow (d : Definition) : List String :=
  [d.kind.code, Text.Markup.escape d.name.shown, d.scope.level.code,
    s!"{d.scope.start.line}-{d.scope.stop.line}", factOr d.metadata "declaringType" ""]

/-- The title of the table of a unit. -/
def unitTitle (u : CodeUnit) : String :=
  let package := factOr u.metadata "packageName" "default package"
  s!"{u.name.shown} [dim]({package})[/]"

/-- The table of a unit. -/
def unitTable (u : CodeUnit) : Table where
  title := unitTitle u
  columns := ["Kind", "Name", "Scope", "Lines", "Declared in"]
  rows := u.definitions.map definitionRow

/-! ### Lines of documentation -/

/-- The label of a tag. -/
def tagLabel (t : DocumentationTag) : String :=
  match factOr t.attributes "name" "" with
  | "" => "@" ++ t.name.shown
  | name => "@" ++ t.name.shown ++ " " ++ name

/-- The line of a tag. -/
def tagLine (indent : String) (t : DocumentationTag) : String :=
  let label := Text.Markup.escape (tagLabel t)
  let line := indent ++ "[yellow]" ++ label ++ "[/] " ++ Text.Markup.escape t.value.shown
  String.ofList (Text.trimRight line.toList)

/-- Documentation as lines of markup. -/
def documentationLines (indent : String) (d : Documentation) : List String :=
  (Text.splitLines d.description.shown.toList).map
      (fun l => indent ++ Text.Markup.escape (String.ofList l)) ++
    d.tags.map (tagLine indent)

/-! ### Errors -/

/-- The line that tells why there is nothing to tell about a file. -/
def errorLine (path : Path) (e : AnalysisError) : String :=
  "[red]Error:[/red] " ++ Text.Markup.escape path.text ++ ": " ++ Text.Markup.escape e.message

end CodeOutline.CommandLine
