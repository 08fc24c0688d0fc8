/-
CodeOutline/Tools.lean

The same services as tools: called by name with a JSON object, answering with a JSON value.

A failure gives an answer with an `error`, unless the path is no text.  A kind that is no kind of
definition is refused before the path is looked at.
-/
import CodeOutline.Json.Describe
import CodeOutline.Report

namespace CodeOutline

/-- The tools. -/
inductive Tool where
  | analyze
  | definitions
  | documentation
  | languages
  deriving DecidableEq, Repr

namespace Tool

/-! ### What is said about the tools -/

/-- All tools. -/
def all : List Tool := [.analyze, .definitions, .documentation, .languages]

/-- The name of a tool. -/
def name : Tool → String
  | .analyze => "codeir_analyze"
  | .definitions => "codeir_definitions"
  | .documentation => "codeir_documentation"
  | .languages => "codeir_languages"

/-- The tool with a name. -/
def ofName? (name : String) : Option Tool := all.find? (fun t => t.name == name)

/-- What a tool does. -/
def description : Tool → String
  | .analyze =>
    "Convert a source file into its language-agnostic representation: " ++
      "definitions with scopes, references and documentation, plus unit metadata."
  | .definitions => "List the definitions of a source file, optionally filtered by kind."
  | .documentation => "Get the documentation of a source file and of each documented definition."
  | .languages => "List the file extensions that can be analyzed."

/-- The schema of an argument. -/
def textSchema (description : String) (values : List (String × Json)) : Json :=
  .obj ([("type", .str "string")] ++ values ++ [("description", .str description)])

/-- The schema of the argument that names a file. -/
def pathSchema : String × Json := ("path", textSchema "Path to a source file" [])

/-- The schema of the argument that names a kind of definitions. -/
def kindSchema : String × Json :=
  ("kind", textSchema "Filter by definition kind (optional)"
    [("enum", .texts (DefinitionKind.all.map DefinitionKind.code))])

/-- The schema of an object with the given members. -/
def objectSchema (properties : List (String × Json)) (required : List String) : Json :=
  .obj ([("type", .str "object"), ("properties", .obj properties)] ++
    (if required.isEmpty then [] else [("required", .texts required)]))

/-- The schema of the arguments of a tool. -/
def schema : Tool → Json
  | .analyze => objectSchema [pathSchema] ["path"]
  | .definitions => objectSchema [pathSchema, kindSchema] ["path"]
  | .documentation => objectSchema [pathSchema] ["path"]
  | .languages => objectSchema [] []

/-! ### Failures -/

/-- Why a tool has no result. -/
inductive Failure where
  | unknownTool (name : String)
  | missingArgument (name : String)
  | notAPath (value : Json)
  | notAKind (value : Json)
  | analysis (e : AnalysisError)

/-- Why a call is not answered at all. -/
inductive Breakdown where
  /-- A set has no order in which it could be written. -/
  | unordered (u : Unordered)
  /-- Something else than a text stands where a path is expected. -/
  | notAPath (actual : String)
  deriving DecidableEq, Repr

/-- The wording of a breakdown. -/
def Breakdown.message : Breakdown → String
  | .unordered u => u.message
  | .notAPath actual => s!"expected str, bytes or os.PathLike object, not {actual}"

/-- The answer that gives a complaint. -/
def complaint (message : String) : Json := .obj [("error", .str message)]

/-- The answer that tells of a failure. -/
def Failure.answer : Failure → Except Breakdown Json
  | .unknownTool name => .ok (complaint s!"Unknown tool: {name}")
  | .missingArgument name => .ok (complaint (Text.quoted name))
  | .notAPath value => .error (.notAPath value.typeName)
  | .notAKind value => .ok (complaint s!"{value.describe} is not a valid DefinitionKind")
  | .analysis e => .ok (complaint e.message)

/-! ### Calls -/

/-- The argument that should name a file. -/
def pathArgument (arguments : Json) : Except Failure Json :=
  match arguments.get? "path" with
  | some value => .ok value
  | none => .error (.missingArgument "path")

/-- The path an argument names. -/
def pathOf : Json → Except Failure Path
  | .str s => .ok (.ofString s)
  | value => .error (.notAPath value)

/-- The argument that names a kind of definitions, if it says anything. -/
def kindOf (arguments : Json) : Except Failure (Option DefinitionKind) :=
  match arguments.get? "kind" with
  | none => .ok none
  | some value =>
    if value.isVoid then .ok none
    else
      match value with
      | .str code =>
        match DefinitionKind.ofCode? code with
        | some kind => .ok (some kind)
        | none => .error (.notAKind value)
      | _ => .error (.notAKind value)

/-- The unit of a file. -/
def unitOf (w : Workspace) (ids : IdSource) (path : Path) : Except Failure CodeUnit :=
  ((w.unitOf? ids path none).getD
    (.error (.unsupported path.name (some Registry.bundled.extensions)))).mapError .analysis

/-- The unit of the file that an argument names. -/
def unitAt (w : Workspace) (ids : IdSource) (value : Json) : Except Failure CodeUnit := do
  unitOf w ids (← pathOf value)

/-- The definitions of a unit in JSON, of one kind or of all. -/
def definitionsToJson (u : CodeUnit) (kind : Option DefinitionKind) : Except Unordered Json := do
  let definitions := match kind with
    | none => u.definitions
    | some kind => u.definitionsOf kind
  return .obj [("unit", ← u.name.toJson),
    ("results", .arr (← definitions.mapM (·.toJson true)))]

/-- What a tool says: either how its result is written, or why there is none. -/
def result (w : Workspace) (ids : IdSource) (arguments : Json) :
    Tool → Except Failure (Except Unordered Json)
  | .analyze => do
    let u ← unitAt w ids (← pathArgument arguments)
    return u.toJson true
  | .definitions => do
    let path ← pathArgument arguments
    let kind ← kindOf arguments
    let u ← unitAt w ids path
    return definitionsToJson u kind
  | .documentation => do
    let u ← unitAt w ids (← pathArgument arguments)
    return u.documentationToJson
  | .languages =>
    .ok (.ok (.obj [("extensions", .texts Registry.bundled.extensions)]))

/-- What the tool with a name says. -/
def resultOf (w : Workspace) (ids : IdSource) (name : String) (arguments : Json) :
    Except Failure (Except Unordered Json) :=
  match ofName? name with
  | none => .error (.unknownTool name)
  | some t => t.result w ids arguments

/-- The answer of the tool with a name. -/
def call (w : Workspace) (ids : IdSource) (name : String) (arguments : Json) :
    Except Breakdown Json :=
  match resultOf w ids name arguments with
  | .ok j => j.mapError .unordered
  | .error f => f.answer

end Tool

end CodeOutline
