/-
CodeOutline/Proofs/Entity/Writing.lean

Which entities can be written.

Writing an entity goes through its parts in order, and as only a set can fail to be written, an
entity whose texts are texts hinges on the sets in its metadata, at any depth: those of the
entities inside it, too.  So it can be written exactly if all these sets can be put in order, what
is written is well formed, and the error is otherwise about one of the sets
(`Entity.exists_toJson_iff_sortable`).  Sets that mix texts and numbers are accepted when an entity
is built, so there are entities that cannot be written (`Entity.toJson_mixedMembers`).
-/
import CodeOutline.Entity.Draft
import CodeOutline.Proofs.Entity.Parts

namespace CodeOutline

open Outcome

/-- All of some parts are texts, or metadata without tokens. -/
abbrev AllTokenFree (ps : List Part) : Prop := ∀ p ∈ ps, p.Regular Metadata.TokenFree

/-! ### Texts and positions -/

theorem Value.hingesOn_text {v : Value} (h : ∃ s, v = .text s) :
    HingesOn [] Json.WellFormed v.toJson := by
  obtain ⟨s, rfl⟩ := h
  rw [toJson]
  exact hingesOn_ok (.str s)

@[simp] theorem Position.wellFormed_toJson (p : Position) : p.toJson.WellFormed := by
  simp [toJson]

@[simp] theorem Position.wellFormed_optionToJson (p : Option Position) :
    (optionToJson p).WellFormed := by
  cases p <;> simp [optionToJson]

/-! ### Scopes, references and documentation -/

theorem Scope.allToJson_eq (ss : List Scope) : allToJson ss = ss.mapM toJson := by
  induction ss with
  | nil => rw [allToJson, List.mapM_nil, pure_eq]
  | cons s ss ih => rw [allToJson, ih, List.mapM_cons]

theorem Scope.hingesOn_toJson {s : Scope} (h : AllTokenFree s.parts) :
    HingesOn (s.parts.flatMap Part.sets) Json.WellFormed s.toJson := by
  induction s using Scope.childInduction with
  | parent s ih =>
    obtain ⟨level, start, stop, children, metadata⟩ := s
    obtain ⟨hchildren, hmetadata⟩ := forall_parts_iff.mp h
    rw [toJson, allToJson_eq]
    refine ((hingesOn_mapM fun c hc => ih c hc (hchildren c hc)).bind fun js hjs =>
      (Metadata.hingesOn_toJson hmetadata).bind fun m hm => hingesOn_ok ?_).congr ?_
    · simpa [hm] using hjs
    · simp [parts, allParts_eq, Part.sets, List.flatMap_assoc]

theorem Reference.hingesOn_toJson {r : Reference} (h : AllTokenFree r.parts) :
    HingesOn (r.parts.flatMap Part.sets) Json.WellFormed r.toJson := by
  obtain ⟨hname, hmetadata⟩ := forall_parts_iff.mp h
  refine ((Value.hingesOn_text hname).bind fun name hname =>
    (Metadata.hingesOn_toJson hmetadata).bind fun m hm => hingesOn_ok ?_).congr ?_
  · simp [hname, hm]
  · simp [parts, Part.sets]

theorem DocumentationTag.hingesOn_toJson {t : DocumentationTag} (h : AllTokenFree t.parts) :
    HingesOn (t.parts.flatMap Part.sets) Json.WellFormed t.toJson := by
  obtain ⟨hname, hvalue, hattributes⟩ := forall_parts_iff.mp h
  refine ((Value.hingesOn_text hname).bind fun name hname =>
    (Value.hingesOn_text hvalue).bind fun value hvalue =>
    (Metadata.hingesOn_toJson hattributes).bind fun m hm => hingesOn_ok ?_).congr ?_
  · simp [hname, hvalue, hm]
  · simp [parts, Part.sets]

theorem Documentation.hingesOn_toJson {d : Documentation} (h : AllTokenFree d.parts) :
    HingesOn (d.parts.flatMap Part.sets) Json.WellFormed d.toJson := by
  obtain ⟨hdescription, htags, hmetadata⟩ := forall_parts_iff.mp h
  refine ((Value.hingesOn_text hdescription).bind fun text htext =>
    (hingesOn_mapM fun t ht => DocumentationTag.hingesOn_toJson (htags t ht)).bind fun tags htags =>
    (Metadata.hingesOn_toJson hmetadata).bind fun m hm => hingesOn_ok ?_).congr ?_
  · simpa [htext, hm] using htags
  · simp [parts, Part.sets, List.flatMap_assoc]

theorem Documentation.hingesOn_optionToJson {d : Option Documentation}
    (h : AllTokenFree (partsOf d)) :
    HingesOn ((partsOf d).flatMap Part.sets) Json.WellFormed (optionToJson d) := by
  cases d with
  | none => exact hingesOn_ok .null
  | some d =>
    have hd := hingesOn_toJson (forall_partsOf_iff.mp h d rfl)
    simpa [partsOf, optionToJson] using hd

/-! ### Definitions and units -/

/-- The member for an id, where ids are written. -/
def idMember (withIds : Bool) (id : Value) : Except Unordered (List (String × Json)) :=
  if withIds then (do return [("id", ← id.toJson)]) else .ok []

theorem hingesOn_idMember {id : Value} (h : ∃ s, id = .text s) (withIds : Bool) :
    HingesOn [] (fun ms => ms = [] ∨ ∃ s, ms = [("id", .str s)]) (idMember withIds id) := by
  obtain ⟨s, rfl⟩ := h
  cases withIds with
  | false => exact hingesOn_ok (.inl rfl)
  | true =>
    rw [idMember, if_pos rfl, Value.toJson]
    exact hingesOn_ok (.inr ⟨s, rfl⟩)

theorem Definition.toJson_eq (withIds : Bool) (d : Definition) :
    d.toJson withIds = (do
      return .obj ((← idMember withIds d.id) ++ [("name", ← d.name.toJson),
        ("kind", .str d.kind.code), ("scope", ← d.scope.toJson), ("position", d.position.toJson),
        ("references", .arr (← d.references.mapM (·.toJson))),
        ("documentation", ← Documentation.optionToJson d.documentation),
        ("metadata", ← d.metadata.toJson)])) := by
  cases withIds <;> rfl

theorem CodeUnit.nameToJson_eq (withIds : Bool) (u : CodeUnit) :
    u.nameToJson withIds = (do
      return .obj ((← idMember withIds u.id) ++ [("name", ← u.name.toJson)])) := by
  cases withIds <;> rfl

theorem CodeUnit.toJson_eq (withIds : Bool) (u : CodeUnit) :
    u.toJson withIds = (do
      return .obj ((← idMember withIds u.id) ++ [("name", ← u.name.toJson),
        ("type", .str u.type.code), ("definitions", .arr (← u.definitions.mapM (·.toJson withIds))),
        ("dependencies", .arr (← u.dependencies.mapM (·.nameToJson withIds))),
        ("documentation", ← Documentation.optionToJson u.documentation),
        ("metadata", ← u.metadata.toJson)])) := by
  cases withIds <;> rfl

theorem Definition.hingesOn_toJson {d : Definition} (h : AllTokenFree d.parts) (withIds : Bool) :
    HingesOn (d.parts.flatMap Part.sets) Json.WellFormed (d.toJson withIds) := by
  obtain ⟨hid, hcontent⟩ := forall_parts_iff.mp h
  obtain ⟨hname, hscope, hreferences, hdocumentation, hmetadata⟩ :=
    Definition.Content.forall_parts_iff.mp hcontent
  rw [toJson_eq]
  refine ((hingesOn_idMember hid withIds).bind fun id hid =>
    (Value.hingesOn_text hname).bind fun name hname =>
    (Scope.hingesOn_toJson hscope).bind fun scope hscope =>
    (hingesOn_mapM fun r hr => Reference.hingesOn_toJson (hreferences r hr)).bind
      fun references hreferences =>
    (Documentation.hingesOn_optionToJson
        (Documentation.forall_partsOf_iff.mpr hdocumentation)).bind
      fun documentation hdocumentation =>
    (Metadata.hingesOn_toJson hmetadata).bind fun m hm => hingesOn_ok ?_).congr ?_
  · -- with an id or without
    rcases hid with rfl | ⟨s, rfl⟩ <;>
      simpa [hname, hscope, hdocumentation, hm] using hreferences
  · simp [parts, Content.parts, Part.sets, List.flatMap_assoc]

theorem CodeUnit.hingesOn_nameToJson {u : CodeUnit} (h : AllTokenFree u.nameParts)
    (withIds : Bool) :
    HingesOn (u.nameParts.flatMap Part.sets) Json.WellFormed (u.nameToJson withIds) := by
  obtain ⟨hid, hname⟩ := forall_nameParts_iff.mp h
  rw [nameToJson_eq]
  refine ((hingesOn_idMember hid withIds).bind fun id hid =>
    (Value.hingesOn_text hname).bind fun name hname =>
    hingesOn_ok ?_).congr ?_
  · rcases hid with rfl | ⟨s, rfl⟩ <;> simp [hname]
  · simp [nameParts, Part.sets]

theorem CodeUnit.hingesOn_toJson {u : CodeUnit} (h : AllTokenFree u.parts) (withIds : Bool) :
    HingesOn (u.parts.flatMap Part.sets) Json.WellFormed (u.toJson withIds) := by
  obtain ⟨hnames, hdefinitions, hdependencies, hdocumentation, hmetadata⟩ := forall_parts_iff.mp h
  obtain ⟨hid, hname⟩ := forall_nameParts_iff.mp hnames
  rw [toJson_eq]
  refine ((hingesOn_idMember hid withIds).bind fun id hid =>
    (Value.hingesOn_text hname).bind fun name hname =>
    (hingesOn_mapM fun d hd => Definition.hingesOn_toJson (hdefinitions d hd) withIds).bind
      fun definitions hdefinitions =>
    (hingesOn_mapM fun v hv => CodeUnit.hingesOn_nameToJson (hdependencies v hv) withIds).bind
      fun dependencies hdependencies =>
    (Documentation.hingesOn_optionToJson
        (Documentation.forall_partsOf_iff.mpr hdocumentation)).bind
      fun documentation hdocumentation =>
    (Metadata.hingesOn_toJson hmetadata).bind fun m hm => hingesOn_ok ?_).congr ?_
  · -- with an id or without
    rcases hid with rfl | ⟨s, rfl⟩ <;>
      simpa [hname, hdocumentation, hm] using And.intro hdefinitions hdependencies
  · simp [parts, nameParts, Part.sets, List.flatMap_assoc]

/-! ### Entities of any type -/

namespace Entity

theorem hingesOn_toJson {e : Entity} (h : AllTokenFree e.parts) (withIds : Bool) :
    HingesOn (e.parts.flatMap Part.sets) Json.WellFormed (e.toJson withIds) := by
  cases e with
  | position p => exact hingesOn_ok p.wellFormed_toJson
  | scope s => exact Scope.hingesOn_toJson h
  | reference r => exact Reference.hingesOn_toJson h
  | tag t => exact DocumentationTag.hingesOn_toJson h
  | documentation d => exact Documentation.hingesOn_toJson h
  | definition d => exact Definition.hingesOn_toJson h withIds
  | unit u => exact CodeUnit.hingesOn_toJson h withIds

/-- An entity can be written exactly if each set in its metadata, and in that of the entities inside
it, can be put in order.  What is written is well formed, and an error names the types of two
members of such a set that have no order. -/
theorem exists_toJson_iff_sortable {e : Entity} (h : ∀ p ∈ e.parts, p.Regular Metadata.TokenFree)
    (withIds : Bool) :
    ((∃ j, e.toJson withIds = .ok j) ↔ ∀ p ∈ e.parts, ∀ ss ∈ p.sets, Scalar.Sortable ss) ∧
      (∀ j, e.toJson withIds = .ok j → j.WellFormed) ∧
      ∀ u, e.toJson withIds = .error u → ∃ p ∈ e.parts, ∃ ss ∈ p.sets, u.IsOf ss := by
  have hhinges := hingesOn_toJson h withIds
  refine ⟨hhinges.exists_iff.trans List.forall_mem_flatMap, fun j hj => ?_, fun u hu => ?_⟩
  · rw [hj] at hhinges
    exact hhinges.2
  · rw [hu] at hhinges
    obtain ⟨ss, hss, hof⟩ := hhinges
    obtain ⟨p, hp, hss⟩ := List.mem_flatMap.mp hss
    exact ⟨p, hp, ss, hss, hof⟩

/-- A reference with a set in its metadata. -/
def withMembers (members : List Scalar) : Entity :=
  .reference ⟨.use, "t", none, [("m", .set members)]⟩

theorem allTokenFree_withMembers {members : List Scalar} (h : ∀ s ∈ members, ∀ t, s ≠ .token t) :
    AllTokenFree (withMembers members).parts := by
  have hmetadata : Metadata.TokenFree [("m", .set members)] :=
    List.forall_mem_singleton.mpr (.set h)
  exact List.forall_mem_cons.mpr ⟨⟨"t", rfl⟩, List.forall_mem_singleton.mpr hmetadata⟩

/-- Words are put in order with texts. -/
theorem exists_toJson_iff_sortable_words :
    AllTokenFree (withMembers [.word (.referenceKind .use), .text "type"]).parts ∧
      ∃ j, (withMembers [.word (.referenceKind .use), .text "type"]).toJson true = .ok j ∧
        j.WellFormed := by
  have h := @allTokenFree_withMembers [.word (.referenceKind .use), .text "type"] (by simp)
  obtain ⟨hiff, hwellFormed, -⟩ := exists_toJson_iff_sortable h true
  obtain ⟨j, hj⟩ := hiff.mpr (by
    simp [withMembers, parts, Reference.parts, Part.sets, Metadata.sets, Metadata.toEntries,
      Value.sets, Value.setsOfEntries, Scalar.Sortable, Scalar.IsTextual,
      Scalar.plain])
  exact ⟨h, j, hj, hwellFormed j hj⟩

/-- A reference with a set of a text and a number is built, and cannot be written. -/
theorem toJson_mixedMembers :
    Entity.ofArguments "" .reference
        [("kind", .scalar (.word (.referenceKind .use))), ("target_name", .scalar (.text "t")),
          ("metadata", .map [(.scalar (.text "m"), .set [.scalar (.text ""), .scalar (.int 1)])])]
        = .ok (withMembers [.text "", .int 1]) ∧
      AllTokenFree (withMembers [.text "", .int 1]).parts ∧
      (withMembers [.text "", .int 1]).toJson true = .error ⟨"int", "str"⟩ :=
  ⟨rfl, allTokenFree_withMembers (by simp), rfl⟩

end Entity

end CodeOutline
