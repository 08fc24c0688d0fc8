/-
CodeOutline/Entity/Kind.lean

The closed sets of words that entities are described with.

Every word has a lowercase code, under which it is written out, and no two words of one set share
a code.  `Word` gathers the five sets, since metadata may hold words of any of them.
-/

namespace CodeOutline

/-- How far a scope is visible, whatever the language. -/
inductive ScopeLevel where
  | global
  | package
  | type
  | function
  | block
  | other
  deriving DecidableEq, Repr, Inhabited

/-- The code of a word. -/
def ScopeLevel.code : ScopeLevel → String
  | .global => "global"
  | .package => "package"
  | .type => "type"
  | .function => "function"
  | .block => "block"
  | .other => "other"

/-- All words of the set. -/
def ScopeLevel.all : List ScopeLevel :=
  [.global, .package, .type, .function, .block, .other]

/-- The word with a code. -/
def ScopeLevel.ofCode? (code : String) : Option ScopeLevel :=
  ScopeLevel.all.find? (fun w => w.code == code)

theorem ScopeLevel.ofCode?_code (w : ScopeLevel) : ScopeLevel.ofCode? w.code = some w := by
  cases w <;> decide

/-- Kinds of named constructs. -/
inductive DefinitionKind where
  | type
  | interface
  | enum
  | function
  | variable
  | moduleUnit
  | property
  | parameter
  | other
  deriving DecidableEq, Repr, Inhabited

/-- The code of a word. -/
def DefinitionKind.code : DefinitionKind → String
  | .type => "type"
  | .interface => "interface"
  | .enum => "enum"
  | .function => "function"
  | .variable => "variable"
  | .moduleUnit => "module"
  | .property => "property"
  | .parameter => "parameter"
  | .other => "other"

/-- All words of the set. -/
def DefinitionKind.all : List DefinitionKind :=
  [.type, .interface, .enum, .function, .variable, .moduleUnit, .property, .parameter, .other]

/-- The word with a code. -/
def DefinitionKind.ofCode? (code : String) : Option DefinitionKind :=
  DefinitionKind.all.find? (fun w => w.code == code)

theorem DefinitionKind.ofCode?_code (w : DefinitionKind) :
    DefinitionKind.ofCode? w.code = some w := by
  cases w <;> decide

/-- Ways in which a definition points at another named thing. -/
inductive ReferenceKind where
  | use
  | modify
  | extend
  | implement
  | importing
  | other
  deriving DecidableEq, Repr, Inhabited

/-- The code of a word. -/
def ReferenceKind.code : ReferenceKind → String
  | .use => "use"
  | .modify => "modify"
  | .extend => "extend"
  | .implement => "implement"
  | .importing => "import"
  | .other => "other"

/-- All words of the set. -/
def ReferenceKind.all : List ReferenceKind :=
  [.use, .modify, .extend, .implement, .importing, .other]

/-- The word with a code. -/
def ReferenceKind.ofCode? (code : String) : Option ReferenceKind :=
  ReferenceKind.all.find? (fun w => w.code == code)

theorem ReferenceKind.ofCode?_code (w : ReferenceKind) :
    ReferenceKind.ofCode? w.code = some w := by
  cases w <;> decide

/-- How a piece of documentation is written. -/
inductive DocumentationFormat where
  | plainText
  | markdown
  | javadoc
  | jsdoc
  | docstring
  | other
  deriving DecidableEq, Repr, Inhabited

/-- The code of a word. -/
def DocumentationFormat.code : DocumentationFormat → String
  | .plainText => "plain_text"
  | .markdown => "markdown"
  | .javadoc => "javadoc"
  | .jsdoc => "jsdoc"
  | .docstring => "docstring"
  | .other => "other"

/-- All words of the set. -/
def DocumentationFormat.all : List DocumentationFormat :=
  [.plainText, .markdown, .javadoc, .jsdoc, .docstring, .other]

/-- The word with a code. -/
def DocumentationFormat.ofCode? (code : String) : Option DocumentationFormat :=
  DocumentationFormat.all.find? (fun w => w.code == code)

theorem DocumentationFormat.ofCode?_code (w : DocumentationFormat) :
    DocumentationFormat.ofCode? w.code = some w := by
  cases w <;> decide

/-- Ways in which code is cut into units. -/
inductive UnitType where
  | file
  | moduleUnit
  | namespaceUnit
  | package
  | library
  | other
  deriving DecidableEq, Repr, Inhabited

/-- The code of a word. -/
def UnitType.code : UnitType → String
  | .file => "file"
  | .moduleUnit => "module"
  | .namespaceUnit => "namespace"
  | .package => "package"
  | .library => "library"
  | .other => "other"

/-- All words of the set. -/
def UnitType.all : List UnitType :=
  [.file, .moduleUnit, .namespaceUnit, .package, .library, .other]

/-- The word with a code. -/
def UnitType.ofCode? (code : String) : Option UnitType :=
  UnitType.all.find? (fun w => w.code == code)

theorem UnitType.ofCode?_code (w : UnitType) :
    UnitType.ofCode? w.code = some w := by
  cases w <;> decide

/-! ### Words of any set -/

/-- A word of one of the five sets. -/
inductive Word where
  | scopeLevel (w : ScopeLevel)
  | definitionKind (w : DefinitionKind)
  | referenceKind (w : ReferenceKind)
  | documentationFormat (w : DocumentationFormat)
  | unitType (w : UnitType)
  deriving DecidableEq, Repr

namespace Word

/-- The code of a word. -/
def code : Word → String
  | .scopeLevel w => w.code
  | .definitionKind w => w.code
  | .referenceKind w => w.code
  | .documentationFormat w => w.code
  | .unitType w => w.code

/-- The name of the set a word is from. -/
def setName : Word → String
  | .scopeLevel _ => "ScopeLevel"
  | .definitionKind _ => "DefinitionKind"
  | .referenceKind _ => "ReferenceKind"
  | .documentationFormat _ => "DocumentationFormat"
  | .unitType _ => "UnitType"

/-- The name of a word inside its set. -/
def memberName (w : Word) : String := w.code.toUpper

/-- The word with a name, in the set with a name. -/
def ofNames? (setName memberName : String) : Option Word :=
  let code := memberName.toLower
  match setName with
  | "ScopeLevel" => (ScopeLevel.ofCode? code).map .scopeLevel
  | "DefinitionKind" => (DefinitionKind.ofCode? code).map .definitionKind
  | "ReferenceKind" => (ReferenceKind.ofCode? code).map .referenceKind
  | "DocumentationFormat" => (DocumentationFormat.ofCode? code).map .documentationFormat
  | "UnitType" => (UnitType.ofCode? code).map .unitType
  | _ => none

/-- A word as text: its set and its name. -/
def text (w : Word) : String := w.setName ++ "." ++ w.memberName

end Word

end CodeOutline
