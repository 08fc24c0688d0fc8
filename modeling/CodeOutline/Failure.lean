/-
CodeOutline/Failure.lean

Why a file has no outline.

`Failure` is what stops the conversion of a tree: a need of the conversion that the tree does not
meet, a tree that lacks what its nodes should have (`TreeDefect`), or an entity that cannot be
built.  `AnalysisError` is what the caller hears: it adds the causes that come before the
conversion, and the name of the unit where the cause does not carry a place of its own.
-/
import CodeOutline.Docstring
import CodeOutline.Path

namespace CodeOutline

/-! ### Needs of a conversion -/

/-- What a conversion needs from a tree. -/
inductive Need where
  | name (kind : String) (line : Nat)
  | range (kind : String) (line : Int)
  | returnType (method : String)
  deriving DecidableEq, Repr

/-- The wording of an unmet need. -/
def Need.message : Need → String
  | .name kind line => s!"Missing name for {kind} at line {line}"
  | .range kind line => s!"Missing source range for {kind} at line {line}"
  | .returnType method => s!"Missing return type for method '{method}'"

/-- A need that is not met, because there is nothing or because looking for it failed. -/
structure Unmet where
  need : String
  cause : Option String := none
  deriving DecidableEq, Repr

/-- The wording of an unmet need with its cause. -/
def Unmet.message (u : Unmet) : String :=
  match u.cause with
  | none => u.need
  | some c => u.need ++ ": " ++ c

/-- The outcome of looking for something that is needed. -/
def needed {α : Type} (need : String) : Except String (Option α) → Except Unmet α
  | .error cause => .error ⟨need, some cause⟩
  | .ok none => .error ⟨need, none⟩
  | .ok (some a) => .ok a

theorem needed_eq_ok_iff {α : Type} {need : String} {r : Except String (Option α)} {a : α} :
    needed need r = .ok a ↔ r = .ok (some a) := by
  unfold needed
  split <;> simp

/-! ### Defects of trees -/

/-- What is wrong with a tree itself. -/
inductive TreeDefect where
  /-- A node of a kind lacks a part that is asked for; an empty place lacks every part. -/
  | noPart (kind part : String)
  /-- A word of an expression is missing, in front of which so many pieces are written. -/
  | noWord (index : Nat)
  /-- The parameter that takes all other named arguments has no name. -/
  | noSpreadName
  /-- What stands in the place of an operator is none. -/
  | noOperator (kind : String)
  /-- The number of dots in front of a module is missing. -/
  | noLevel
  /-- There is nothing out of which to yield. -/
  | noSource
  deriving DecidableEq, Repr

/-- How messages call the kind of an empty place. -/
def TreeDefect.emptyKind : String := "NoneType"

/-- An empty place is asked for a part. -/
def TreeDefect.emptyPlace (part : String) : TreeDefect := .noPart emptyKind part

/-- The wording of a defect. -/
def TreeDefect.message : TreeDefect → String
  | .noPart kind part => s!"'{kind}' object has no attribute '{part}'"
  | .noWord index => s!"sequence item {index}: expected str instance, {emptyKind} found"
  | .noSpreadName => s!"can only concatenate str (not \"{emptyKind}\") to str"
  | .noOperator kind => Text.quoted kind
  | .noLevel => s!"'>' not supported between instances of '{emptyKind}' and 'int'"
  | .noSource => "Node can't be used without a value attribute."

/-! ### Failures of a conversion -/

/-- What stops a conversion. -/
inductive Failure where
  | unmet (u : Unmet)
  | argument (e : ArgumentError)
  | docstring (f : Docstring.Failure)
  /-- A tree names a line that the text does not have. -/
  | noSuchLine
  | defect (d : TreeDefect)
  /-- A module lies at the source root itself. -/
  | noModuleName (path : Path)
  deriving DecidableEq, Repr

/-- The wording of a failure. -/
def Failure.message : Failure → String
  | .unmet u => u.message
  | .argument e => e.message
  | .docstring f => f.message
  | .noSuchLine => "list index out of range"
  | .defect d => d.message
  | .noModuleName path => s!"{path.describe} has an empty name"

/-- A result with the errors of entities among the failures. -/
def built {α : Type} (r : Except ArgumentError α) : Except Failure α := r.mapError .argument

/-- A result with the defects of trees among the failures. -/
def sound {α : Type} (r : Except TreeDefect α) : Except Failure α := r.mapError .defect

@[simp] theorem sound_ok {α : Type} (a : α) : sound (.ok a) = .ok a := rfl

@[simp] theorem built_ok {α : Type} (a : α) : built (.ok a) = .ok a := rfl

/-! ### Errors of an analysis -/

/-- Why a file cannot be read. -/
inductive ReadFailure where
  | notFound
  | notADirectory
  | isADirectory
  deriving DecidableEq, Repr

/-- The wording of a read failure. -/
def ReadFailure.message : ReadFailure → String
  | .notFound => "[Errno 2] No such file or directory"
  | .notADirectory => "[Errno 20] Not a directory"
  | .isADirectory => "[Errno 21] Is a directory"

/-- Why an analysis has no result. -/
inductive AnalysisError where
  | argument (e : ArgumentError)
  | unreadable (path : Path) (cause : ReadFailure)
  /-- A path with a null character, which no file can have. -/
  | nullInPath
  /-- The parser reported problems or gave no tree. -/
  | unparsed (unit : String) (problems : List String)
  /-- As `unparsed`, where only documentation was asked for. -/
  | unparsedDocumentation (unit : String) (problems : List String)
  | unconverted (unit : String) (cause : Failure)
  /-- No analyzer is registered for the file; `supported` lists the extensions that have one, if
  they are to be told. -/
  | unsupported (name : String) (supported : Option (List String))
  deriving Repr

/-- The wording for a path with a null character. -/
def nullInPathMessage : String := "embedded null byte"

/-- The wording of an analysis error. -/
def AnalysisError.message : AnalysisError → String
  | .argument e => e.message
  | .unreadable path cause =>
    s!"Cannot read {path.text}: {cause.message}: {Text.quoted path.text}"
  | .nullInPath => nullInPathMessage
  | .unparsed unit problems =>
    let detail := "; ".intercalate problems
    s!"Failed to parse {unit}: " ++ (if detail == "" then "no syntax tree" else detail)
  | .unparsedDocumentation unit _ => s!"Failed to parse {unit}"
  | .unconverted _ (.unmet u) => u.message
  | .unconverted unit cause => s!"Failed to convert {unit}: {cause.message}"
  | .unsupported name none => s!"Unsupported file type: {name}"
  | .unsupported name (some extensions) =>
    let list := ", ".intercalate extensions
    s!"Unsupported file type: {name} (supported: {list})"

end CodeOutline
