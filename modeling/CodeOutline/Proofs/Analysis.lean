/-
CodeOutline/Proofs/Analysis.lean

What an analysis of a file gives, whoever asks for it.

Ids are the only thing in which two analyses of one file can differ: from two sources of ids they
give the same error, or units that are equal but for their ids (`Workspace.agree_unitOf?`).  What is
said about a unit without its ids, such as its documentation in JSON, is therefore the same
(`CodeUnit.Renamed.documentationToJson_eq`).  And the unit of a file can always be written
(`Workspace.writable_of_unitOf?`).
-/
import CodeOutline.CommandLine.Answer
import CodeOutline.Proofs.Java.Writing
import CodeOutline.Proofs.Python.Writing

namespace CodeOutline

open Outcome

/-! ### Units but for their ids -/

/-- Two units are equal but for the ids of themselves and of their definitions. -/
structure CodeUnit.Renamed (u v : CodeUnit) : Prop where
  name : u.name = v.name
  type : u.type = v.type
  contents : u.definitions.map Definition.toContent = v.definitions.map Definition.toContent
  dependencies : u.dependencies = v.dependencies
  documentation : u.documentation = v.documentation
  metadata : u.metadata = v.metadata

namespace CodeUnit.Renamed

variable {u v : CodeUnit}

/-- Whatever is made of the contents of definitions is the same for both units. -/
theorem filterMap_eq {α : Type} (h : u.Renamed v) (f : Definition.Content → Option α) :
    u.definitions.filterMap (fun d => f d.toContent)
      = v.definitions.filterMap (fun d => f d.toContent) := by
  have hmap := congrArg (List.filterMap f) h.contents
  rwa [List.filterMap_map, List.filterMap_map] at hmap

/-- What is said of the documentation in two such units is the same. -/
theorem documentationToJson_eq (h : u.Renamed v) :
    u.documentationToJson = v.documentationToJson := by
  -- of a definition only its content is told
  let told (c : Definition.Content) : Option (Except Unordered Json) :=
    c.documentation.map fun doc => documentedToJson ⟨c, .null⟩ doc
  have htold : ∀ w : CodeUnit, w.documented.mapM (fun d => documentedToJson d.1 d.2)
      = (w.definitions.filterMap (fun d => told d.toContent)).mapM (fun r => r) := by
    intro w
    have heq : w.definitions.filterMap (fun d => told d.toContent)
        = w.documented.map (fun d => documentedToJson d.1 d.2) := by
      rw [documented, List.map_filterMap]
      refine List.filterMap_congr fun d _ => ?_
      simp only [told, Option.map_map]
      rfl
    rw [heq, List.mapM_map]
    rfl
  rw [documentationToJson, documentationToJson, htold, htold, h.filterMap_eq told, h.documentation]

/-- The tables of two such units are the same. -/
theorem unitTable_eq (h : u.Renamed v) :
    CommandLine.unitTable u = CommandLine.unitTable v := by
  have hrows := congrArg (List.map fun c => CommandLine.definitionRow ⟨c, .null⟩) h.contents
  rw [List.map_map, List.map_map] at hrows
  have htitle : CommandLine.unitTitle u = CommandLine.unitTitle v := by
    rw [CommandLine.unitTitle, CommandLine.unitTitle, h.name, h.metadata]
  rw [CommandLine.unitTable, CommandLine.unitTable, htitle]
  exact congrArg _ hrows

end CodeUnit.Renamed

/-! ### Results that agree -/

/-- Two results agree: they are the same error, or values that are related. -/
inductive Outcome.Agree {ε α β : Type} (R : α → β → Prop) : Except ε α → Except ε β → Prop
  | error (e : ε) : Agree R (.error e) (.error e)
  | ok {a : α} {b : β} : R a b → Agree R (.ok a) (.ok b)

section Agree

variable {ε δ α β γ : Type} {R : α → β → Prop}

theorem Outcome.Agree.exists_ok {x : Except ε α} {y : Except ε β} {a : α} (h : Agree R x y)
    (hx : x = .ok a) : ∃ b, y = .ok b ∧ R a b := by
  subst hx
  cases h with
  | ok h => exact ⟨_, rfl, h⟩

/-- Of results that agree both are an error if one is. -/
theorem Outcome.Agree.eq_error_iff {x : Except ε α} {y : Except ε β} {e : ε} (h : Agree R x y) :
    x = .error e ↔ y = .error e := by
  cases h <;> simp

theorem Outcome.Agree.bind {x : Except ε γ} {f : γ → Except ε α} {g : γ → Except ε β}
    (h : ∀ c, Agree R (f c) (g c)) : Agree R (x >>= f) (x >>= g) := by
  cases x with
  | error e => exact .error e
  | ok c => exact h c

theorem Outcome.Agree.mapError {x : Except ε α} {y : Except ε β} (h : Agree R x y) (f : ε → δ) :
    Agree R (x.mapError f) (y.mapError f) := by
  cases h with
  | error e => exact .error (f e)
  | ok h => exact .ok h

/-- Results that agree do so in whatever follows for their values. -/
theorem Outcome.Agree.imp {S : α → β → Prop} {x : Except ε α} {y : Except ε β} (h : Agree R x y)
    (hS : ∀ a b, x = .ok a → y = .ok b → R a b → S a b) : Agree S x y := by
  cases h with
  | error e => exact .error e
  | ok h => exact .ok (hS _ _ rfl rfl h)

end Agree

/-! ### Analyses -/

theorem Outline.agree_toUnit (ids ids' : IdSource) (o : Outline) :
    Agree CodeUnit.Renamed (o.toUnit ids) (o.toUnit ids') := by
  rw [o.toUnit_eq ids, o.toUnit_eq ids']
  -- the name is looked at before anything else
  split
  · exact .ok ⟨rfl, rfl, by rw [Outline.map_toContent_number, Outline.map_toContent_number], rfl,
      rfl, rfl⟩
  · exact .error _

theorem Java.agree_convert (ids ids' : IdSource) (p : Option (Parsed Node)) :
    Agree CodeUnit.Renamed (convert ids p) (convert ids' p) :=
  .bind fun _ => .mapError (.bind fun o => (o.agree_toUnit ids ids').mapError _) _

theorem Python.agree_convert (ids ids' : IdSource) (workingDirectory : List String)
    (sourceRoot : Option Path) (p : Option (Parsed Node)) :
    Agree CodeUnit.Renamed (convert ids workingDirectory sourceRoot p)
      (convert ids' workingDirectory sourceRoot p) :=
  .bind fun _ => .mapError
    (.bind fun _ => .bind fun o => (o.agree_toUnit ids ids').mapError _) _

variable {w : Workspace} {ids ids' : IdSource} {path : Path} {root : Option Path}

theorem Analyzer.agree_analyzeFile (ids ids' : IdSource) (a : Analyzer) (path : Path) :
    Agree CodeUnit.Renamed (a.analyzeFile w ids path) (a.analyzeFile w ids' path) := by
  unfold analyzeFile
  split
  · exact .error _
  · split
    · exact .error _
    · split
      · exact Java.agree_convert ids ids' _
      · exact Python.agree_convert ids ids' _ _ _

theorem Analyzer.writable_of_analyzeFile {a : Analyzer} {u : CodeUnit}
    (h : a.analyzeFile w ids path = .ok u) : u.Writable := by
  unfold analyzeFile at h
  split at h
  · cases h
  · split at h
    · cases h
    · split at h
      · exact Java.writable_of_convert h
      · exact Python.writable_of_convert h

/-- Two analyses of a file that take their ids from two sources agree. -/
theorem Workspace.agree_unitOf? (ids ids' : IdSource) (path : Path) (root : Option Path) :
    Option.Rel (Agree CodeUnit.Renamed) (w.unitOf? ids path root) (w.unitOf? ids' path root) := by
  unfold unitOf?
  cases Registry.bundled.resolve path root with
  | none => exact .none
  | some a => exact .some (a.agree_analyzeFile ids ids' path)

theorem Workspace.agree_getD_unitOf? (ids ids' : IdSource) (path : Path) (root : Option Path)
    (e : AnalysisError) :
    Agree CodeUnit.Renamed ((w.unitOf? ids path root).getD (.error e))
      ((w.unitOf? ids' path root).getD (.error e)) := by
  have h := w.agree_unitOf? ids ids' path root
  generalize w.unitOf? ids path root = x at h ⊢
  generalize w.unitOf? ids' path root = y at h ⊢
  cases h with
  | none => exact .error e
  | some h => exact h

/-- The unit of a file is that of an analyzer. -/
theorem Workspace.exists_analyzeFile_of_unitOf? {e : AnalysisError} {u : CodeUnit}
    (h : (w.unitOf? ids path root).getD (.error e) = .ok u) :
    ∃ a : Analyzer, a.analyzeFile w ids path = .ok u := by
  rcases hunit : w.unitOf? ids path root with - | r
  · rw [hunit] at h
    cases h
  · obtain ⟨a, -, hfile⟩ := Option.map_eq_some_iff.mp hunit
    rw [hunit, Option.getD_some] at h
    exact ⟨a, hfile.trans h⟩

/-- The unit of a file can be written. -/
theorem Workspace.writable_of_unitOf? {e : AnalysisError} {u : CodeUnit}
    (h : (w.unitOf? ids path root).getD (.error e) = .ok u) : u.Writable := by
  obtain ⟨a, ha⟩ := w.exists_analyzeFile_of_unitOf? h
  exact a.writable_of_analyzeFile ha

end CodeOutline
