/-
CodeOutline/Proofs/Entity/Elementary.lean

Entities of texts and elementary metadata.

What a converter builds has elementary parts, if the facts it writes down are elementary: each
lemma `.. elementary_of_make` says so for one entity, and `Outline.elementary_of_toUnit` for a unit.
There is no set in elementary parts, so nothing keeps such an entity from being written
(`AllElementary.exists_of_hingesOn`).

`Writable` collects what is used of this: a unit of elementary parts that depends on no other has a
form in JSON with ids and without, and so do its documentation and each of its definitions.
-/
import CodeOutline.Proofs.Entity.Building
import CodeOutline.Proofs.Entity.Writing
import CodeOutline.Proofs.Metadata.Faithful
import CodeOutline.Report

namespace CodeOutline

open Outcome

/-! ### Elementary parts -/

/-- All of some parts are texts, or elementary metadata. -/
abbrev AllElementary (ps : List Part) : Prop := ∀ p ∈ ps, p.Regular Metadata.Elementary

theorem AllElementary.allTokenFree {ps : List Part} (h : AllElementary ps) : AllTokenFree ps := by
  intro p hp
  have hregular := h p hp
  cases p with
  | text v => exact hregular
  | metadata m => exact Metadata.Elementary.tokenFree hregular

theorem AllElementary.sets_eq_nil {ps : List Part} (h : AllElementary ps) :
    ps.flatMap Part.sets = [] := by
  refine List.flatMap_eq_nil_iff.mpr fun p hp => ?_
  have hregular := h p hp
  cases p with
  | text v => rfl
  | metadata m => exact Metadata.Elementary.sets_eq_nil hregular

/-- What hinges on the sets in elementary parts is there. -/
theorem AllElementary.exists_of_hingesOn {α : Type} {ps : List Part} {P : α → Prop}
    {x : Except Unordered α} (h : AllElementary ps) (hx : HingesOn (ps.flatMap Part.sets) P x) :
    ∃ a, x = .ok a := by
  rw [h.sets_eq_nil] at hx
  exact hx.exists_iff.mpr (by simp)

/-! ### Entities that converters build -/

theorem Metadata.elementary_nil : Elementary [] := ⟨List.nodup_nil, by simp⟩

theorem Scope.elementary_of_make {level : ScopeLevel} {start stop : Position}
    {children : List Scope} {s : Scope} (hchildren : ∀ c ∈ children, AllElementary c.parts)
    (h : Scope.make level start stop children = .ok s) : AllElementary s.parts := by
  obtain ⟨-, -, rfl⟩ := Scope.make_eq_ok_iff.mp h
  exact Scope.forall_parts_iff.mpr ⟨hchildren, Metadata.elementary_nil⟩

theorem Reference.elementary_of_make {kind : ReferenceKind} {target : String} {position : Position}
    {metadata : List (Scalar × Value)} {r : Reference} (hmetadata : ∀ e ∈ metadata, e.2.Elementary)
    (h : Reference.make kind target position metadata = .ok r) : AllElementary r.parts := by
  obtain ⟨-, rfl⟩ := Reference.make_eq_ok_iff.mp h
  exact Reference.forall_parts_iff.mpr ⟨⟨target, rfl⟩, Metadata.elementary_ofEntries hmetadata⟩

theorem DocumentationTag.elementary_of_make {name value : String}
    {attributes : List (String × String)} {t : DocumentationTag}
    (h : DocumentationTag.make name value attributes = .ok t) : AllElementary t.parts := by
  obtain ⟨-, rfl⟩ := DocumentationTag.make_eq_ok_iff.mp h
  have htexts : ∀ e ∈ attributes.map (fun a => (Scalar.text a.1, Value.text a.2)),
      e.2.Elementary := List.forall_mem_map.mpr fun a _ => Value.elementary_text a.2
  exact DocumentationTag.forall_parts_iff.mpr
    ⟨⟨name, rfl⟩, ⟨value, rfl⟩, Metadata.elementary_ofEntries htexts⟩

theorem Documentation.elementary_of_make {format : DocumentationFormat} {description : String}
    {position : Option Position} {tags : List DocumentationTag} {d : Documentation}
    (htags : ∀ t ∈ tags, AllElementary t.parts)
    (h : Documentation.make format description position tags = .ok d) : AllElementary d.parts := by
  rw [Documentation.make_eq_ok, Except.ok.injEq] at h
  subst h
  exact Documentation.forall_parts_iff.mpr ⟨⟨description, rfl⟩, htags, Metadata.elementary_nil⟩

theorem Definition.Content.elementary_of_make {name : String} {kind : DefinitionKind}
    {scope : Scope} {position : Position} {references : List Reference}
    {documentation : Option Documentation} {metadata : List (Scalar × Value)}
    {c : Definition.Content} (hscope : AllElementary scope.parts)
    (hreferences : ∀ r ∈ references, AllElementary r.parts)
    (hdocumentation : ∀ d ∈ documentation, AllElementary d.parts)
    (hmetadata : ∀ e ∈ metadata, e.2.Elementary)
    (h : Definition.Content.make name kind scope position references documentation metadata
      = .ok c) : AllElementary c.parts := by
  obtain ⟨-, rfl⟩ := Definition.Content.make_eq_ok_iff.mp h
  exact Definition.Content.forall_parts_iff.mpr ⟨⟨name, rfl⟩, hscope, hreferences, hdocumentation,
    Metadata.elementary_ofEntries hmetadata⟩

/-- The scopes of definitions with elementary parts have such parts. -/
theorem Definition.Content.elementary_scopes {ds : List Definition.Content}
    (h : ∀ d ∈ ds, AllElementary d.parts) : ∀ s ∈ ds.map (·.scope), AllElementary s.parts :=
  List.forall_mem_map.mpr fun d hd => (Definition.Content.forall_parts_iff.mp (h d hd)).2.1

/-- The unit of an outline has elementary parts if what was found out is elementary. -/
theorem Outline.elementary_of_toUnit {ids : IdSource} {o : Outline} {u : CodeUnit}
    (hdefinitions : ∀ c ∈ o.definitions, AllElementary c.parts)
    (hdocumentation : ∀ d ∈ o.documentation, AllElementary d.parts)
    (hmetadata : ∀ e ∈ o.metadata, e.2.Elementary) (h : o.toUnit ids = .ok u) :
    AllElementary u.parts := by
  obtain ⟨-, rfl⟩ := Outline.toUnit_eq_ok_iff.mp h
  refine CodeUnit.forall_parts_iff.mpr ⟨?_, fun d hd => ?_, by simp, hdocumentation,
    Metadata.elementary_ofEntries hmetadata⟩
  · exact CodeUnit.forall_nameParts_iff.mpr ⟨⟨_, rfl⟩, ⟨_, rfl⟩⟩
  · obtain ⟨hcontent, n, hid⟩ := Outline.mem_number hd
    exact Definition.forall_parts_iff.mpr ⟨⟨_, hid⟩, hdefinitions _ hcontent⟩

theorem Outline.dependencies_of_toUnit {ids : IdSource} {o : Outline} {u : CodeUnit}
    (h : o.toUnit ids = .ok u) : u.dependencies = [] := by
  obtain ⟨-, rfl⟩ := Outline.toUnit_eq_ok_iff.mp h
  rfl

/-! ### What can be written -/

/-- A value that can be written. -/
def Value.Writable (v : Value) : Prop := ∃ j, v.toJson = .ok j

/-- Metadata that can be written. -/
def Metadata.Writable (m : Metadata) : Prop := ∃ j, m.toJson = .ok j

/-- A scope that can be written. -/
def Scope.Writable (s : Scope) : Prop := ∃ j, s.toJson = .ok j

/-- A reference that can be written. -/
def Reference.Writable (r : Reference) : Prop := ∃ j, r.toJson = .ok j

/-- A piece of documentation that can be written. -/
def Documentation.Writable (d : Documentation) : Prop := ∃ j, d.toJson = .ok j

theorem Documentation.exists_optionToJson {d : Option Documentation} (h : ∀ e ∈ d, e.Writable) :
    ∃ j, optionToJson d = .ok j := by
  cases d with
  | none => exact ⟨.null, rfl⟩
  | some d => exact h d rfl

/-- The content of a definition that can be written. -/
structure Definition.Content.Writable (c : Definition.Content) : Prop where
  name : c.name.Writable
  scope : c.scope.Writable
  references : ∀ r ∈ c.references, r.Writable
  documentation : ∀ d ∈ c.documentation, d.Writable
  metadata : c.metadata.Writable

theorem Definition.exists_toJson {d : Definition} (hid : d.id.Writable)
    (h : d.toContent.Writable) (withIds : Bool) : ∃ j, d.toJson withIds = .ok j := by
  obtain ⟨id, hid⟩ := hid
  obtain ⟨name, hname⟩ := h.name
  obtain ⟨scope, hscope⟩ := h.scope
  obtain ⟨references, hreferences⟩ := exists_mapM_eq_ok h.references
  obtain ⟨documentation, hdocumentation⟩ := Documentation.exists_optionToJson h.documentation
  obtain ⟨metadata, hmetadata⟩ := h.metadata
  cases withIds <;>
    simp [toJson, hid, hname, hscope, hreferences, hdocumentation, hmetadata]

/-- A unit that can be written and depends on no other. -/
structure CodeUnit.Writable (u : CodeUnit) : Prop where
  id : u.id.Writable
  name : u.name.Writable
  definitions : ∀ d ∈ u.definitions, d.id.Writable ∧ d.toContent.Writable
  dependencies : u.dependencies = []
  documentation : ∀ d ∈ u.documentation, d.Writable
  metadata : u.metadata.Writable

/-! ### Elementary parts can be written -/

theorem Value.writable_of_text {v : Value} (h : ∃ s, v = .text s) : v.Writable := by
  obtain ⟨s, rfl⟩ := h
  exact ⟨.str s, by rw [toJson, Scalar.toJson]⟩

theorem Metadata.Elementary.writable {m : Metadata} (h : m.Elementary) : m.Writable := by
  have hhinges := hingesOn_toJson h.tokenFree
  rw [h.sets_eq_nil] at hhinges
  exact hhinges.exists_iff.mpr (by simp)

theorem Scope.writable_of_elementary {s : Scope} (h : AllElementary s.parts) : s.Writable :=
  h.exists_of_hingesOn (hingesOn_toJson h.allTokenFree)

theorem Reference.writable_of_elementary {r : Reference} (h : AllElementary r.parts) :
    r.Writable := h.exists_of_hingesOn (hingesOn_toJson h.allTokenFree)

theorem Documentation.writable_of_elementary {d : Documentation} (h : AllElementary d.parts) :
    d.Writable := h.exists_of_hingesOn (hingesOn_toJson h.allTokenFree)

theorem Definition.Content.writable_of_elementary {c : Definition.Content}
    (h : AllElementary c.parts) : c.Writable := by
  obtain ⟨hname, hscope, hreferences, hdocumentation, hmetadata⟩ := forall_parts_iff.mp h
  exact {
    name := Value.writable_of_text hname
    scope := Scope.writable_of_elementary hscope
    references := fun r hr => Reference.writable_of_elementary (hreferences r hr)
    documentation := fun d hd => Documentation.writable_of_elementary (hdocumentation d hd)
    metadata := Metadata.Elementary.writable hmetadata }

/-- A unit of elementary parts that depends on no other can be written. -/
theorem CodeUnit.writable_of_elementary {u : CodeUnit} (h : AllElementary u.parts)
    (hdependencies : u.dependencies = []) : u.Writable := by
  obtain ⟨hnames, hdefinitions, -, hdocumentation, hmetadata⟩ := forall_parts_iff.mp h
  obtain ⟨hid, hname⟩ := forall_nameParts_iff.mp hnames
  refine ⟨Value.writable_of_text hid, Value.writable_of_text hname, fun d hd => ?_, hdependencies,
    fun d hd => Documentation.writable_of_elementary (hdocumentation d hd),
    Metadata.Elementary.writable hmetadata⟩
  obtain ⟨hid, hcontent⟩ := Definition.forall_parts_iff.mp (hdefinitions d hd)
  exact ⟨Value.writable_of_text hid, Definition.Content.writable_of_elementary hcontent⟩

namespace CodeUnit.Writable

variable {u : CodeUnit}

/-- A writable unit has a form in JSON. -/
theorem exists_toJson (h : u.Writable) (withIds : Bool) : ∃ j, u.toJson withIds = .ok j := by
  obtain ⟨id, hid⟩ := h.id
  obtain ⟨name, hname⟩ := h.name
  obtain ⟨definitions, hdefinitions⟩ := exists_mapM_eq_ok (f := (·.toJson withIds))
    fun d hd => Definition.exists_toJson (h.definitions d hd).1 (h.definitions d hd).2 withIds
  obtain ⟨documentation, hdocumentation⟩ := Documentation.exists_optionToJson h.documentation
  obtain ⟨metadata, hmetadata⟩ := h.metadata
  cases withIds <;>
    simp [CodeUnit.toJson, hid, hname, hdefinitions, h.dependencies, hdocumentation, hmetadata]

/-- The documentation in a writable unit has a form in JSON. -/
theorem exists_documentationToJson (h : u.Writable) : ∃ j, u.documentationToJson = .ok j := by
  obtain ⟨own, hown⟩ := Documentation.exists_optionToJson h.documentation
  have hdocumented : ∃ js, u.documented.mapM (fun d => documentedToJson d.1 d.2) = .ok js := by
    refine exists_mapM_eq_ok fun e he => ?_
    obtain ⟨d, hd, hdoc⟩ := List.mem_filterMap.mp he
    obtain ⟨doc, hsome, rfl⟩ := Option.map_eq_some_iff.mp hdoc
    obtain ⟨name, hname⟩ := (h.definitions d hd).2.name
    obtain ⟨j, hj⟩ := (h.definitions d hd).2.documentation doc hsome
    simp [documentedToJson, hname, hj]
  obtain ⟨js, hjs⟩ := hdocumented
  simp [documentationToJson, hown, hjs]

end CodeUnit.Writable

end CodeOutline
