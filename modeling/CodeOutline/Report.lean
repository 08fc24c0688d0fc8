/-
CodeOutline/Report.lean

What the command line and the tools tell about a file.

Both choose the analyzer among the bundled ones by the extension of the file.  Documentation is
told for the unit and for every definition that has some.
-/
import CodeOutline.Analyzer

namespace CodeOutline

/-- The unit of a file by the analyzer for its extension; none if there is no such analyzer. -/
def Workspace.unitOf? (w : Workspace) (ids : IdSource) (path : Path) (root : Option Path) :
    Option (Except AnalysisError CodeUnit) :=
  (Registry.bundled.resolve path root).map (fun a => a.analyzeFile w ids path)

/-- The text of a value that is written where a text is expected. -/
def Value.shown : Value → String
  | .scalar s => s.render
  | _ => ""

namespace CodeUnit

/-- The definitions that have documentation, with it. -/
def documented (u : CodeUnit) : List (Definition × Documentation) :=
  u.definitions.filterMap (fun d => d.documentation.map (fun doc => (d, doc)))

/-- The documentation of one definition in JSON. -/
def documentedToJson (d : Definition) (doc : Documentation) : Except Unordered Json := do
  return .obj [("name", ← d.name.toJson), ("kind", .str d.kind.code),
    ("documentation", ← doc.toJson)]

/-- The documentation of a unit and of its definitions in JSON. -/
def documentationToJson (u : CodeUnit) : Except Unordered Json := do
  return .obj [("unit", ← Documentation.optionToJson u.documentation),
    ("definitions", .arr (← u.documented.mapM (fun d => documentedToJson d.1 d.2)))]

end CodeUnit

end CodeOutline
