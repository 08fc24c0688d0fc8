/-
CodeOutline/Proofs/CommandLine/Request.lean

Arguments that ask for the commands on files.

Behind two hyphens every word is a path, whatever it begins with.  Arguments of this form reach a
command with just these paths, unless one of them holds a null character
(`ofArguments_analyze`, `ofArguments_docs`).
-/
import CodeOutline.CommandLine.Request

namespace CodeOutline.CommandLine

/-! ### Taking arguments apart -/

variable {admitted : List Flag} {stops : Bool}

/-- Where options stand in front only, a word ends them. -/
theorem scan?_word {word : String} (hword : readOption? admitted word = none)
    (hhyphens : word ≠ "--") (rest : List String) :
    scan? admitted true (word :: rest) = some ⟨[], word :: rest⟩ := by
  rw [scan?, if_neg (by simpa using hhyphens), hword]
  rfl

theorem scan?_flag {arg : String} {f : Flag}
    (harg : readOption? admitted arg = some (some ([(f, "")], none))) (hhyphens : arg ≠ "--")
    (rest : List String) :
    scan? admitted stops (arg :: rest) =
      (scan? admitted stops rest).map fun s => { s with settings := (f, "") :: s.settings } := by
  rw [scan?, if_neg (by simpa using hhyphens), harg]
  rfl

theorem scan?_valued {arg value : String} {f : Flag}
    (harg : readOption? admitted arg = some (some ([], some f))) (hhyphens : arg ≠ "--")
    (rest : List String) :
    scan? admitted stops (arg :: value :: rest) =
      (scan? admitted stops rest).map fun s => { s with settings := (f, value) :: s.settings } := by
  rw [scan?, if_neg (by simpa using hhyphens), harg]
  rfl

/-- The option for JSON output may stand in front. -/
theorem scan?_optionalJson
    (hjson : readOption? admitted "--json" = some (some ([(.json, "")], none))) (json : Bool)
    {rest : List String} {s : Scan} (hrest : scan? admitted stops rest = some s) :
    scan? admitted stops ((if json then ["--json"] else []) ++ rest) =
      some { s with settings := (if json then [(.json, "")] else []) ++ s.settings } := by
  cases json with
  | false => exact hrest
  | true =>
    show scan? admitted stops ("--json" :: rest) = _
    rw [scan?_flag hjson (by decide), hrest]
    rfl

/-- A root may be given before the paths. -/
theorem scan?_optionalRoot (hroot : readOption? admitted "--root" = some (some ([], some .root)))
    (root : Option String) (words : List String) :
    scan? admitted stops ((root.elim [] fun r => ["--root", r]) ++ "--" :: words) =
      some ⟨root.elim [] fun r => [(.root, r)], words⟩ := by
  cases root with
  | none => exact scan?_hyphens words
  | some r =>
    show scan? admitted stops ("--root" :: r :: "--" :: words) = _
    rw [scan?_valued hroot (by decide), scan?_hyphens]
    rfl

/-! ### Requests -/

/-- A request that begins with the name of a command is one for this command. -/
theorem ofArguments_command {name : String} {flags : List Flag} (rest : List String)
    (hname : commandFlags name = some flags) (hword : readOption? commonFlags name = none)
    (hhyphens : name ≠ "--") :
    Request.ofArguments none (name :: rest) = commandRequest .warning name flags rest := by
  have hlevel : LogLevel.ofName? defaultLevel = some .warning := by decide
  rw [Request.ofArguments, scan?_word hword hhyphens]
  simp [Scan.has, levelName, Scan.value?, requestOf, hname, hlevel]

/-- The arguments that ask for the definitions of files. -/
def analyzeArguments (json : Bool) (root : Option String) (words : List String) : List String :=
  "analyze" :: ((if json then ["--json"] else []) ++ (root.elim [] fun r => ["--root", r]) ++
    "--" :: words)

/-- The arguments that ask for the documentation of a file. -/
def docsArguments (json : Bool) (word : String) : List String :=
  "docs" :: ((if json then ["--json"] else []) ++ ["--", word])

theorem ofArguments_analyze (json : Bool) (root : Option String) {words : List String}
    (hwords : words ≠ []) :
    Request.ofArguments none (analyzeArguments json root words) =
      let c := Command.analyze (words.map Path.ofString) json (root.map Path.ofString)
      if c.paths.all Path.isNameable then .run .warning c else .misuse := by
  obtain ⟨word, words, rfl⟩ := List.exists_cons_of_ne_nil hwords
  have hjson : readOption? [.json, .root, .help] "--json" = some (some ([(.json, "")], none)) := by
    decide
  have hroot : readOption? [.json, .root, .help] "--root" = some (some ([], some .root)) := by
    decide
  have hflags : (Flag.root == Flag.json) = false := rfl
  rw [analyzeArguments, ofArguments_command _ rfl rfl (by decide), commandRequest,
    List.append_assoc, scan?_optionalJson hjson json (scan?_optionalRoot hroot root _)]
  cases json <;> cases root <;> simp [Scan.has, Scan.value?, command?, hflags]

theorem ofArguments_docs (json : Bool) (word : String) :
    Request.ofArguments none (docsArguments json word) =
      if (Path.ofString word).isNameable then .run .warning (.docs (Path.ofString word) json)
      else .misuse := by
  have hjson : readOption? [.json, .help] "--json" = some (some ([(.json, "")], none)) := by
    decide
  rw [docsArguments, ofArguments_command _ rfl rfl (by decide), commandRequest,
    scan?_optionalJson hjson json (scan?_hyphens [word])]
  cases json <;> simp [Scan.has, command?, Command.paths]

end CodeOutline.CommandLine
