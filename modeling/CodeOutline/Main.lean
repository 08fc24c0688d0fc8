/-
CodeOutline/Main.lean

The program.

It gathers what a command needs from outside, leaves the work to `Command.run`, and prints the
answer.  Parsing is not its business: the syntax tree of a file is read from a second file, which
has the name of the first with `.tree.json` after it.
-/
import CodeOutline.CommandLine
import CodeOutline.CommandLine.Screen
import CodeOutline.Java.Tree.Reader
import CodeOutline.Json.Printer
import CodeOutline.Json.Reader
import CodeOutline.Python.Tree.Reader

namespace CodeOutline.Main

open CommandLine

/-- The environment variable with the level of logging. -/
def levelVariable : String := "CODEIR_LOG_LEVEL"

/-- The paths of the files that a command reads. -/
def pathsOf : Command → List Path
  | .analyze paths _ _ => paths
  | .docs path _ => [path]
  | .languages _ => []

/-- What is known about one path. -/
structure Source where
  path : Path
  contents : Except ReadFailure Text.Utf8.Octets
  tree : Json

/-- Why a file could not be read.  The system's number of the cause comes with either sign. -/
def failureOf : IO.Error → ReadFailure
  | .inappropriateType _ code _ =>
    if code = 20 || code + 20 = 0 then .notADirectory else .isADirectory
  | _ => .notFound

/-- Reads a file. -/
def readOctets (path : String) : IO (Except ReadFailure Text.Utf8.Octets) := do
  try
    let bytes ← IO.FS.readBinFile path
    return .ok bytes.toList
  catch e => return .error (failureOf e)

/-- Reads a file and its syntax tree. -/
def readSource (path : Path) : IO Source := do
  let contents ← readOctets path.text
  let tree ← readOctets (path.text ++ ".tree.json")
  let json := match tree with
    | .ok octets => (Json.read? (String.ofList (Text.Utf8.decode octets))).getD .null
    | .error _ => .null
  return ⟨path, contents, json⟩

/-- The syntax tree of a path in JSON. -/
def treeOf (sources : List Source) (path : Option Path) : Json :=
  match sources.find? (fun s => some s.path == path) with
  | some s => s.tree
  | none => .null

/-- The workspace of some files. -/
def workspace (workingDirectory : List String) (sources : List Source) : Workspace where
  workingDirectory := workingDirectory
  read := fun path =>
    match sources.find? (fun s => s.path == path) with
    | some s => s.contents
    | none => .error .notFound
  javaParser := fun path octets =>
    (Java.Node.ofJson? (treeOf sources path)).getD
      ⟨"program", 0, octets.length, none, true, false, true, []⟩
  pythonParser := fun path _ => Python.parserOutcome (treeOf sources path)

/-- Names for entities that no other run gives. -/
def freshIds : IO (Nat → IdSource) := do
  let seed ← IO.getRandomBytes 16
  let stem := String.ofList (seed.toList.flatMap (fun b => Text.hexDigits 2 b.toNat))
  return fun file entity => s!"{stem}-{file}-{entity}"

/-- Prints an answer. -/
def printAnswer (a : Answer) : IO UInt32 := do
  for o in a.console do
    for l in o.screen do
      IO.println l
  for e in a.errors do
    IO.eprintln (Text.Markup.plain e)
  match a.json with
  | some j => IO.println j.render
  | none => pure ()
  return UInt32.ofNat a.exitCode

/-- Does what is asked for. -/
def perform (request : Request) : IO UInt32 := do
  match request with
  | .help =>
    usage.forM (fun l => IO.println l)
    return 0
  | .misuse =>
    usage.forM (fun l => IO.eprintln l)
    return 2
  | .run _ command =>
    let here ← IO.currentDir
    let sources ← (pathsOf command).mapM readSource
    let w := workspace (Path.ofString here.toString).parts sources
    match command.run w (← freshIds) with
    | .ok a => printAnswer a
    | .error u =>
      IO.eprintln u.message
      return 1

end CodeOutline.Main

/-- Runs the program. -/
def main (arguments : List String) : IO UInt32 := do
  let level ← IO.getEnv CodeOutline.Main.levelVariable
  CodeOutline.Main.perform (CodeOutline.CommandLine.Request.ofArguments level arguments)
