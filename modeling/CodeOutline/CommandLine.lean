/-
CodeOutline/CommandLine.lean

The commands of the program.

`analyze` goes through its files one after the other: a file that cannot be analyzed is reported
and does not keep the others from being told.  The exit code is 1 when anything failed, and 2 when
the arguments make no sense.
-/
import CodeOutline.CommandLine.Answer
import CodeOutline.CommandLine.Request

namespace CodeOutline.CommandLine

/-- The unit of a file, or why there is none. -/
def unitOf (w : Workspace) (ids : IdSource) (root : Option Path) (path : Path) :
    Except AnalysisError CodeUnit :=
  (w.unitOf? ids path root).getD (.error (.unsupported path.name none))

/-! ### Listing definitions -/

/-- A file with its unit or the reason why it has none. -/
abbrev Outcome := Path × Except AnalysisError CodeUnit

/-- The outcomes for some files, the first of which has the given number. -/
def outcomes (w : Workspace) (ids : Nat → IdSource) (root : Option Path) (next : Nat) :
    List Path → List Outcome
  | [] => []
  | p :: ps => (p, unitOf w (ids next) root p) :: outcomes w ids root (next + 1) ps

/-- What an outcome is in JSON. -/
def outcomeToJson : Outcome → Except Unordered Json
  | (path, .ok u) => do
    return .obj [("path", .str path.text), ("unit", ← u.toJson true)]
  | (path, .error e) => .ok (.obj [("path", .str path.text), ("error", .str e.message)])

/-- What is printed for an outcome. -/
def outcomeTable? : Outcome → Option Output
  | (_, .ok u) => some (.table (unitTable u))
  | (_, .error _) => none

/-- The complaint about an outcome. -/
def outcomeError? : Outcome → Option String
  | (_, .ok _) => none
  | (path, .error e) => some (errorLine path e)

/-- Whether an outcome is a failure. -/
def hasFailed (o : Outcome) : Bool := (outcomeError? o).isSome

/-- The exit code of a command that fails or not. -/
def exitCodeOf (failed : Bool) : Nat := if failed then 1 else 0

/-- The answer that some outcomes give. -/
def answerOf (json : Bool) (os : List Outcome) : Except Unordered Answer :=
  let exitCode := exitCodeOf (os.any hasFailed)
  if json then do
    return { exitCode := exitCode, json := some (.arr (← os.mapM outcomeToJson)) }
  else
    .ok { exitCode := exitCode, console := os.filterMap outcomeTable?,
          errors := os.filterMap outcomeError? }

/-! ### Documentation -/

/-- What is printed for a definition. -/
def definitionLines (d : Definition) (doc : Documentation) : List String :=
  ("\n[bold cyan]" ++ d.name.shown ++ "[/] (" ++ d.kind.code ++ ")") ::
    documentationLines "  " doc

/-- What is printed about the documentation of a unit. -/
def documentationOutput (u : CodeUnit) : List String :=
  let own := match u.documentation with
    | none => []
    | some doc => ("[bold]" ++ u.name.shown ++ "[/]") :: documentationLines "  " doc
  match u.documented with
  | [] => own ++ ["[dim]No documented definitions in " ++ u.name.shown ++ "[/]"]
  | ds => own ++ ds.flatMap (fun d => definitionLines d.1 d.2)

/-- The answer to a request for documentation. -/
def documentationAnswer (w : Workspace) (ids : IdSource) (path : Path) (json : Bool) :
    Except Unordered Answer :=
  match unitOf w ids none path with
  | .error e => .ok { exitCode := 1, errors := [errorLine path e] }
  | .ok u =>
    if json then do return { json := some (← u.documentationToJson) }
    else .ok { console := (documentationOutput u).map .line }

/-! ### All commands -/

/-- The answer to a request for extensions. -/
def languagesAnswer (json : Bool) : Answer :=
  let extensions := Registry.bundled.extensions
  if json then { json := some (.texts extensions) }
  else { console := extensions.map (fun e => .line ("." ++ e)) }

/-- Runs a command; the files get their ids from different sources. -/
def Command.run (w : Workspace) (ids : Nat → IdSource) : Command → Except Unordered Answer
  | .analyze paths json root => answerOf json (outcomes w ids root 0 paths)
  | .docs path json => documentationAnswer w (ids 0) path json
  | .languages json => .ok (languagesAnswer json)

/-- The answer to a request.  What help says is left to the program around. -/
def Request.answer (w : Workspace) (ids : Nat → IdSource) : Request → Except Unordered Answer
  | .run _ c => c.run w ids
  | .help => .ok {}
  | .misuse => .ok .misuse

end CodeOutline.CommandLine
