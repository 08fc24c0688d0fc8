/-
CodeOutline/Proofs/FrontEnds.lean

The tools and the commands tell the same about a file.

Both ask the analyzer for the extension of the file, with the folder of the file as source root, so
they have equal units but for the ids, or the same error; only where there is no analyzer do they
word it in two ways (`unitOf_cases`).  A tool succeeds exactly when there is a unit
(`Tool.succeeds_iff`), and then says what the command says (`frontEnds_agree`).
-/
import CodeOutline.Proofs.CommandLine.Analyze
import CodeOutline.Tools

namespace CodeOutline

open Outcome

/-! ### Units of files -/

/-- For the tools and for the commands a file has units that are equal but for their ids, or none;
if there is an analyzer for it, they have the same error then. -/
theorem unitOf_cases (w : Workspace) (path : Path) (ids ids' : IdSource) :
    (∃ u v, Tool.unitOf w ids path = .ok u ∧ CommandLine.unitOf w ids' none path = .ok v ∧
      u.Renamed v) ∨
    ∃ e e', Tool.unitOf w ids path = .error (.analysis e) ∧
      CommandLine.unitOf w ids' none path = .error e' ∧
      (Registry.bundled.supports path = true → e = e') := by
  have hagree := w.agree_unitOf? ids ids' path none
  have hsupports : (w.unitOf? ids path none).isSome = Registry.bundled.supports path := by
    rw [Workspace.unitOf?, Option.isSome_map, Registry.isSome_resolve]
  unfold Tool.unitOf CommandLine.unitOf
  generalize w.unitOf? ids path none = x at hagree hsupports ⊢
  generalize w.unitOf? ids' path none = y at hagree ⊢
  cases hagree with
  | none =>
    -- there is no analyzer for the file
    refine .inr ⟨_, _, rfl, rfl, fun h => ?_⟩
    rw [← hsupports] at h
    cases h
  | some h =>
    cases h with
    | error e => exact .inr ⟨e, e, rfl, rfl, fun _ => rfl⟩
    | ok h => exact .inl ⟨_, _, rfl, rfl, h⟩

/-- Two tools have units of a file that are equal but for their ids, or the same error. -/
theorem Tool.agree_unitOf (w : Workspace) (path : Path) (ids ids₁ : IdSource) :
    Agree CodeUnit.Renamed (Tool.unitOf w ids path) (Tool.unitOf w ids₁ path) :=
  (w.agree_getD_unitOf? ids ids₁ path none _).mapError _

theorem Tool.writable_of_unitOf {w : Workspace} {ids : IdSource} {path : Path} {u : CodeUnit}
    (h : Tool.unitOf w ids path = .ok u) : u.Writable :=
  w.writable_of_unitOf? (mapError_eq_ok_iff.mp h)

/-! ### Calls of tools -/

namespace Tool

variable {w : Workspace} {ids : IdSource}

/-- A call of a tool succeeds with a result: it is answered, and not with a complaint. -/
def Succeeds (w : Workspace) (ids : IdSource) (name : String) (arguments j : Json) : Prop :=
  call w ids name arguments = .ok j ∧ j.get? "error" = none

/-- The arguments that name a path. -/
def atPath (s : String) : Json := .obj [("path", .str s)]

/-- The arguments that name a path and a kind of definitions. -/
def atPathOfKind (s : String) (kind : DefinitionKind) : Json :=
  .obj [("path", .str s), ("kind", .str kind.code)]

/-- A call has as its result what is written of the unit of a file. -/
structure Writes (name : String) (arguments : Json) (s : String)
    (write : CodeUnit → Except Unordered Json) : Prop where
  resultOf_eq : ∀ w ids, resultOf w ids name arguments = (unitOf w ids (.ofString s)).map write
  get?_error : ∀ u j, write u = .ok j → j.get? "error" = none

namespace Writes

variable {name s : String} {arguments : Json} {write : CodeUnit → Except Unordered Json}

/-- Such a call succeeds exactly if there is a unit that can be written. -/
theorem succeeds_iff (h : Writes name arguments s write) {j : Json} :
    Succeeds w ids name arguments j ↔
      ∃ u, unitOf w ids (.ofString s) = .ok u ∧ write u = .ok j := by
  rw [Succeeds, call, h.resultOf_eq]
  rcases unitOf w ids (.ofString s) with f | u
  · -- the answer to a failure is a complaint
    simp only [Except.map, reduceCtorEq, false_and, exists_false, iff_false, not_and]
    intro hj
    cases f <;> cases hj <;> simp [complaint, Json.get?, Assoc.find?]
  · simp only [Except.map, Except.ok.injEq, mapError_eq_ok_iff, exists_eq_left']
    exact and_iff_left_of_imp (h.get?_error u j)

theorem call_eq_of_error (h : Writes name arguments s write) {e : AnalysisError}
    (he : unitOf w ids (.ofString s) = .error (.analysis e)) :
    call w ids name arguments = .ok (complaint e.message) := by
  rw [call, h.resultOf_eq, he]
  rfl

end Writes

/-! ### The tools on files -/

theorem unitAt_str (s : String) : unitAt w ids (.str s) = unitOf w ids (.ofString s) := by
  rw [unitAt, pathOf, ok_bind]

theorem pathArgument_atPath (s : String) : pathArgument (atPath s) = .ok (.str s) := by
  simp [pathArgument, atPath, Json.get?, Assoc.find?]

theorem pathArgument_atPathOfKind (s : String) (kind : DefinitionKind) :
    pathArgument (atPathOfKind s kind) = .ok (.str s) := by
  simp [pathArgument, atPathOfKind, Json.get?, Assoc.find?]

theorem kindOf_atPath (s : String) : kindOf (atPath s) = .ok none := by
  simp [kindOf, atPath, Json.get?, Assoc.find?]

theorem kindOf_atPathOfKind (s : String) (kind : DefinitionKind) :
    kindOf (atPathOfKind s kind) = .ok (some kind) := by
  have hvoid : (Json.str kind.code).isVoid = false := by cases kind <;> decide
  simp [kindOf, atPathOfKind, Json.get?, Assoc.find?, hvoid, DefinitionKind.ofCode?_code]

theorem writes_analyze (s : String) :
    Writes "codeir_analyze" (atPath s) s (·.toJson true) where
  resultOf_eq w ids := by
    have hname : ofName? "codeir_analyze" = some .analyze := by decide
    simp only [resultOf, hname, result, pathArgument_atPath, ok_bind, unitAt_str]
    cases unitOf w ids (.ofString s) <;> rfl
  get?_error u j h := by
    simp only [CodeUnit.toJson, if_pos, bind_eq_ok_iff, pure_eq, Except.ok.injEq] at h
    obtain ⟨_, ⟨id, -, rfl⟩, name, -, definitions, -, dependencies, -, documentation, -, metadata,
      -, rfl⟩ := h
    simp [Json.get?, Assoc.find?]

theorem writes_documentation (s : String) :
    Writes "codeir_documentation" (atPath s) s (·.documentationToJson) where
  resultOf_eq w ids := by
    have hname : ofName? "codeir_documentation" = some .documentation := by decide
    simp only [resultOf, hname, result, pathArgument_atPath, ok_bind, unitAt_str]
    cases unitOf w ids (.ofString s) <;> rfl
  get?_error u j h := by
    simp only [CodeUnit.documentationToJson, bind_eq_ok_iff, pure_eq, Except.ok.injEq] at h
    obtain ⟨own, -, documented, -, rfl⟩ := h
    simp [Json.get?, Assoc.find?]

theorem get?_error_of_definitionsToJson {u : CodeUnit} {kind : Option DefinitionKind} {j : Json}
    (h : definitionsToJson u kind = .ok j) : j.get? "error" = none := by
  simp only [definitionsToJson, bind_eq_ok_iff, pure_eq, Except.ok.injEq] at h
  obtain ⟨name, -, definitions, -, rfl⟩ := h
  simp [Json.get?, Assoc.find?]

theorem ofName?_definitions : ofName? "codeir_definitions" = some .definitions := by decide

theorem writes_definitions (s : String) :
    Writes "codeir_definitions" (atPath s) s (definitionsToJson · none) where
  resultOf_eq w ids := by
    simp only [resultOf, ofName?_definitions, result, pathArgument_atPath, kindOf_atPath, ok_bind,
      unitAt_str]
    cases unitOf w ids (.ofString s) <;> rfl
  get?_error _ _ h := get?_error_of_definitionsToJson h

theorem writes_definitionsOf (s : String) (kind : DefinitionKind) :
    Writes "codeir_definitions" (atPathOfKind s kind) s (definitionsToJson · (some kind)) where
  resultOf_eq w ids := by
    simp only [resultOf, ofName?_definitions, result, pathArgument_atPathOfKind,
      kindOf_atPathOfKind, ok_bind, unitAt_str]
    cases unitOf w ids (.ofString s) <;> rfl
  get?_error _ _ h := get?_error_of_definitionsToJson h

/-- A writable unit can be told by its definitions, all of them or those of a kind. -/
theorem exists_definitionsToJson {u : CodeUnit} (h : u.Writable) (kind : Option DefinitionKind) :
    ∃ name ds, u.name.toJson = .ok name ∧
      (kind.elim u.definitions u.definitionsOf).mapM (·.toJson true) = .ok ds ∧
      definitionsToJson u kind = .ok (.obj [("unit", name), ("results", .arr ds)]) := by
  obtain ⟨name, hname⟩ := h.name
  have hsubset : ∀ d ∈ kind.elim u.definitions u.definitionsOf, d ∈ u.definitions := by
    cases kind with
    | none => exact fun d hd => hd
    | some kind => exact fun d hd => List.mem_of_mem_filter hd
  obtain ⟨ds, hds⟩ := exists_mapM_eq_ok (f := (·.toJson true)) fun d hd =>
    Definition.exists_toJson (h.definitions d (hsubset d hd)).1 (h.definitions d (hsubset d hd)).2
      true
  refine ⟨name, ds, hname, hds, ?_⟩
  cases kind <;> simp_all [definitionsToJson]

/-- The calls about a file: those of all tools on files, for definitions of all kinds or of one. -/
inductive OnFile (s : String) : String → Json → Prop
  | analyze : OnFile s "codeir_analyze" (atPath s)
  | documentation : OnFile s "codeir_documentation" (atPath s)
  | definitions : OnFile s "codeir_definitions" (atPath s)
  | definitionsOf (kind : DefinitionKind) : OnFile s "codeir_definitions" (atPathOfKind s kind)

/-- A call about a file writes something of the unit, which can always be written. -/
theorem OnFile.exists_writes {s name : String} {arguments : Json} (h : OnFile s name arguments) :
    ∃ write, Writes name arguments s write ∧ ∀ u : CodeUnit, u.Writable → ∃ j, write u = .ok j := by
  cases h with
  | analyze => exact ⟨_, writes_analyze s, fun _ hu => hu.exists_toJson true⟩
  | documentation => exact ⟨_, writes_documentation s, fun _ hu => hu.exists_documentationToJson⟩
  | definitions =>
    refine ⟨_, writes_definitions s, fun _ hu => ?_⟩
    obtain ⟨name, ds, -, -, hj⟩ := exists_definitionsToJson hu none
    exact ⟨_, hj⟩
  | definitionsOf kind =>
    refine ⟨_, writes_definitionsOf s kind, fun _ hu => ?_⟩
    obtain ⟨name, ds, -, -, hj⟩ := exists_definitionsToJson hu (some kind)
    exact ⟨_, hj⟩

end Tool

/-! ### Answers of commands -/

namespace CommandLine

variable {w : Workspace} {ids : Nat → IdSource} {path : Path}

theorem run_docs_of_ok {u : CodeUnit} {j : Json} (hu : unitOf w (ids 0) none path = .ok u)
    (hj : u.documentationToJson = .ok j) :
    Command.run w ids (.docs path true) = .ok { json := some j } := by
  simp [Command.run, documentationAnswer, hu, hj]

theorem run_docs_of_error {e : AnalysisError} (he : unitOf w (ids 0) none path = .error e) :
    Command.run w ids (.docs path true) = .ok { exitCode := 1, errors := [errorLine path e] } := by
  simp [Command.run, documentationAnswer, he]

theorem lists_of_ok {u : CodeUnit} {j : Json} (hu : unitOf w (ids 0) none path = .ok u)
    (hj : u.toJson true = .ok j) :
    Lists w ids none [path] [.obj [("path", .str path.text), ("unit", j)]] 0 := by
  simp [Lists, Command.run, answerOf, outcomes, outcomeToJson, hu, hj, hasFailed, outcomeError?,
    exitCodeOf]

theorem lists_of_error {e : AnalysisError} (he : unitOf w (ids 0) none path = .error e) :
    Lists w ids none [path] [.obj [("path", .str path.text), ("error", .str e.message)]] 1 := by
  simp [Lists, Command.run, answerOf, outcomes, outcomeToJson, he, hasFailed, outcomeError?,
    exitCodeOf]

end CommandLine

/-! ### Tools and commands -/

section Agreement

open CommandLine (Command Lists errorLine)

variable (w : Workspace) (s : String) (ids ids₁ : IdSource) (ids' : Nat → IdSource)

/-- The tool for documentation succeeds exactly when the command does, with the same result. -/
def DocumentationAgrees : Prop :=
  ∃ a, Command.run w ids' (.docs (.ofString s) true) = .ok a ∧
    ((∃ j, Tool.Succeeds w ids "codeir_documentation" (Tool.atPath s) j) ↔ a.exitCode = 0) ∧
    ∀ j, Tool.Succeeds w ids "codeir_documentation" (Tool.atPath s) j → a.json = some j

/-- The tool for units succeeds exactly when the entry of the command has a unit, which is the same
but for ids. -/
def UnitAgrees : Prop :=
  ∃ entry exitCode, Lists w ids' none [.ofString s] [entry] exitCode ∧
    ((∃ j, Tool.Succeeds w ids "codeir_analyze" (Tool.atPath s) j) ↔
      ∃ k, entry.get? "unit" = some k) ∧
    ∀ j k, Tool.Succeeds w ids "codeir_analyze" (Tool.atPath s) j → entry.get? "unit" = some k →
      ∃ u v : CodeUnit, u.Renamed v ∧ u.toJson true = .ok j ∧ v.toJson true = .ok k

/-- The tool for definitions gives those of the unit in order, or of these the ones of a kind; they
are the same but for ids. -/
def DefinitionsAgree : Prop :=
  ∀ j, Tool.Succeeds w ids "codeir_analyze" (Tool.atPath s) j →
    ∃ (u v : CodeUnit) (name : Json), u.toJson true = .ok j ∧ u.Renamed v ∧
      u.name.toJson = .ok name ∧
      (∃ ds, v.definitions.mapM (·.toJson true) = .ok ds ∧
        Tool.Succeeds w ids₁ "codeir_definitions" (Tool.atPath s)
          (.obj [("unit", name), ("results", .arr ds)])) ∧
      ∀ kind : DefinitionKind, ∃ ds,
        (v.definitions.filter (fun d => d.kind == kind)).mapM (·.toJson true) = .ok ds ∧
        Tool.Succeeds w ids₁ "codeir_definitions" (Tool.atPathOfKind s kind)
          (.obj [("unit", name), ("results", .arr ds)])

/-- If some call about the file does not succeed, all calls and commands fail with one error. -/
def ErrorsAgree : Prop :=
  ∀ name arguments, Tool.OnFile s name arguments →
    (∀ j, ¬ Tool.Succeeds w ids name arguments j) → ∃ e : AnalysisError,
    (∀ name' arguments', Tool.OnFile s name' arguments' →
      Tool.call w ids₁ name' arguments' = .ok (Tool.complaint e.message)) ∧
    Lists w ids' none [.ofString s]
      [.obj [("path", .str (Path.ofString s).text), ("error", .str e.message)]] 1 ∧
    Command.run w ids' (.docs (.ofString s) true)
      = .ok { exitCode := 1, errors := [errorLine (.ofString s) e] }

theorem documentationAgrees : DocumentationAgrees w s ids ids' := by
  simp only [DocumentationAgrees, (Tool.writes_documentation s).succeeds_iff]
  obtain ⟨u, v, hu, hv, huv⟩ | ⟨e, e', he, he', -⟩ := unitOf_cases w (.ofString s) ids (ids' 0)
  · obtain ⟨j, hj⟩ := (Tool.writable_of_unitOf hu).exists_documentationToJson
    refine ⟨_, CommandLine.run_docs_of_ok hv (huv.documentationToJson_eq ▸ hj), ?_, ?_⟩
    · simpa using ⟨j, u, hu, hj⟩
    · rintro k ⟨x, hx, hk⟩
      rw [hu, Except.ok.injEq] at hx
      rw [← hx, hj, Except.ok.injEq] at hk
      rw [hk]
  · refine ⟨_, CommandLine.run_docs_of_error he', ?_, ?_⟩
    · simp [he]
    · simp [he]

theorem unitAgrees : UnitAgrees w s ids ids' := by
  simp only [UnitAgrees, (Tool.writes_analyze s).succeeds_iff]
  obtain ⟨u, v, hu, hv, huv⟩ | ⟨e, e', he, he', -⟩ := unitOf_cases w (.ofString s) ids (ids' 0)
  · obtain ⟨j, hj⟩ := (Tool.writable_of_unitOf hu).exists_toJson true
    obtain ⟨k, hk⟩ := (CommandLine.writable_of_unitOf hv).exists_toJson true
    have hunit : Json.get? (.obj [("path", .str (Path.ofString s).text), ("unit", k)]) "unit"
        = some k := by
      simp [Json.get?, Assoc.find?]
    refine ⟨_, _, CommandLine.lists_of_ok hv hk, ?_, ?_⟩
    · simpa [hunit] using ⟨j, u, hu, hj⟩
    · rintro j' k' ⟨x, hx, hj'⟩ hk'
      rw [hu, Except.ok.injEq] at hx
      rw [hunit, Option.some.injEq] at hk'
      exact ⟨u, v, huv, hx ▸ hj', hk' ▸ hk⟩
  · refine ⟨_, _, CommandLine.lists_of_error he', ?_, ?_⟩
    · simp [he, Json.get?, Assoc.find?]
    · simp [he]

theorem definitionsAgree : DefinitionsAgree w s ids ids₁ := by
  intro j h
  obtain ⟨u, hu, hj⟩ := (Tool.writes_analyze s).succeeds_iff.mp h
  obtain ⟨v, hv, huv⟩ := (Tool.agree_unitOf w (.ofString s) ids ids₁).exists_ok hu
  have hwritable := Tool.writable_of_unitOf hv
  obtain ⟨name, ds, hname, hds, hall⟩ := Tool.exists_definitionsToJson hwritable none
  refine ⟨u, v, name, hj, huv, huv.name ▸ hname, ⟨ds, hds, ?_⟩, fun kind => ?_⟩
  · exact (Tool.writes_definitions s).succeeds_iff.mpr ⟨v, hv, hall⟩
  · obtain ⟨name', ds, hname', hds, hkind⟩ := Tool.exists_definitionsToJson hwritable (some kind)
    obtain rfl : name' = name := Except.ok.inj (hname'.symm.trans hname)
    exact ⟨ds, hds, (Tool.writes_definitionsOf s kind).succeeds_iff.mpr ⟨v, hv, hkind⟩⟩

theorem errorsAgree (hsupports : Registry.bundled.supports (.ofString s) = true) :
    ErrorsAgree w s ids ids₁ ids' := by
  intro name arguments hcall h
  obtain ⟨u, v, hu, -, -⟩ | ⟨e, e', he, he', heq⟩ := unitOf_cases w (.ofString s) ids (ids' 0)
  · -- where there is a unit, every call succeeds
    obtain ⟨write, hwrites, hwrite⟩ := hcall.exists_writes
    obtain ⟨j, hj⟩ := hwrite u (Tool.writable_of_unitOf hu)
    exact absurd (hwrites.succeeds_iff.mpr ⟨u, hu, hj⟩) (h j)
  · obtain rfl := heq hsupports
    have he₁ := (Tool.agree_unitOf w (.ofString s) ids ids₁).eq_error_iff.mp he
    refine ⟨e, fun name' arguments' hcall' => ?_, CommandLine.lists_of_error he',
      CommandLine.run_docs_of_error he'⟩
    obtain ⟨write, hwrites, -⟩ := hcall'.exists_writes
    exact hwrites.call_eq_of_error he₁

end Agreement

/-! ### A workspace with one file -/

/-- A module is the only file there is. -/
def oneModule : Workspace where
  workingDirectory := ["work"]
  read := fun path =>
    if path = .ofString "m.py" then .ok "x = 1\n".toUTF8.toList else .error .notFound
  javaParser := fun _ octets => .plain "program" 0 octets.length none []
  pythonParser := fun _ _ => .ok ⟨"", "Module", none, [], [
    ⟨"body", "Assign", some ⟨1, 0, some 1, some 5⟩, [], [
      ⟨"targets", "Name", some ⟨1, 0, some 1, some 1⟩, [("id", .text "x")], []⟩,
      ⟨"value", "Constant", some ⟨1, 4, some 1, some 5⟩, [("value", .literal (.int "1"))], []⟩]⟩]⟩

end CodeOutline
