/-
CodeOutline/Analyzer.lean

Analyzers: from a file or a text to its unit.

An analyzer is for one language and names modules from a source root on.  What it needs from
outside is gathered in a workspace: the files, and the parsers of the languages.
-/
import CodeOutline.Java.Outline
import CodeOutline.Python.Outline
import CodeOutline.Registry

namespace CodeOutline

open Text.Utf8 (Octets)

/-! ### Languages -/

/-- The languages that can be analyzed. -/
inductive Language where
  | java
  | python
  deriving DecidableEq, Repr

/-- The name of a language. -/
def Language.name : Language → String
  | .java => "java"
  | .python => "python"

/-- All languages. -/
def Language.all : List Language := [.java, .python]

/-- The language with a name. -/
def Language.ofName? (name : String) : Option Language :=
  Language.all.find? (fun l => l.name == name)

/-- The extension of the files of a language. -/
def Language.extension : Language → String
  | .java => "java"
  | .python => "py"

/-! ### Workspaces -/

/-- What an analysis needs from outside. -/
structure Workspace where
  /-- The names that lead from the root to the working directory. -/
  workingDirectory : List String
  read : Path → Except ReadFailure Octets
  javaParser : Java.Parser
  pythonParser : Python.Parser

namespace Workspace

/-- The unit of a Java source. -/
def javaUnit (w : Workspace) (ids : IdSource) (path : Option Path) (source : Octets) :
    Except AnalysisError CodeUnit :=
  Java.convert ids (some (Java.parsed w.javaParser path source))

/-- The unit of a parsed Python source. -/
def pythonUnit (w : Workspace) (ids : IdSource) (root : Option Path)
    (parsed : Parsed Python.Node) : Except AnalysisError CodeUnit :=
  Python.convert ids w.workingDirectory root (some parsed)

end Workspace

/-! ### Analyzers -/

/-- An analyzer of one language. -/
structure Analyzer where
  language : Language
  /-- The folder in which the names of modules begin. -/
  sourceRoot : Option Path
  deriving DecidableEq, Repr

/-- A source root as messages show it. -/
def describeRoot : Option Path → String
  | none => "None"
  | some root => root.describe

namespace Analyzer

/-- An analyzer as messages show it. -/
def describe (a : Analyzer) : String :=
  let name := match a.language with
    | .java => "JavaAnalyzer"
    | .python => "PythonAnalyzer"
  s!"{name}(source_root={describeRoot a.sourceRoot})"

/-- The unit of a file. -/
def analyzeFile (w : Workspace) (ids : IdSource) (a : Analyzer) (path : Path) :
    Except AnalysisError CodeUnit :=
  if !path.isNameable then .error .nullInPath
  else
    match w.read path with
    | .error cause => .error (.unreadable path cause)
    | .ok source =>
      match a.language with
      | .java => w.javaUnit ids (some path) source
      | .python => w.pythonUnit ids a.sourceRoot (Python.parsedFile w.pythonParser path source)

/-- The unit of a text, which may be said to come from a file. -/
def analyzeText (w : Workspace) (ids : IdSource) (a : Analyzer) (path : Option Path)
    (text : String) : Except AnalysisError CodeUnit :=
  match a.language with
  | .java => w.javaUnit ids path (Text.Utf8.encode text.toList)
  | .python =>
    w.pythonUnit ids a.sourceRoot (Python.parsedText w.pythonParser path text.toList)

/-- The definitions of a unit. -/
def definitions (u : CodeUnit) : List Definition := u.definitions

/-- The documentation of a unit itself. -/
def documentation (u : CodeUnit) : List Documentation := u.documentation.toList

/-! ### Analyzers put together by hand -/

/-- A parser and a converter that need not be for the same language. -/
structure Parts where
  parser : Language
  converter : Language
  sourceRoot : Option Path
  deriving DecidableEq, Repr

/-- Puts an analyzer together; both parts are needed. -/
def Parts.make (parser converter : Option Language) (sourceRoot : Option Path) :
    Except ArgumentError Parts :=
  match parser, converter with
  | none, _ => .error (.null "parser")
  | some _, none => .error (.null "converter")
  | some parser, some converter => .ok ⟨parser, converter, sourceRoot⟩

/-- An analyzer that was put together, as messages show it. -/
def Parts.describe (p : Parts) : String := s!"Analyzer(source_root={describeRoot p.sourceRoot})"

end Analyzer

/-! ### The bundled analyzers -/

/-- The analyzers of all languages by the extension of their files. -/
def Registry.bundled : Registry Analyzer :=
  ⟨Language.all.map (fun l => (l.extension, fun root => ⟨l, some root⟩))⟩

end CodeOutline
