/-
CodeOutline/Proofs/Entity/Rebuilding.lean

Entities that are built anew from their own fields.

What is built holds the values that its draft holds, with a text in the place of some that are
empty, and a map whose keys have become texts.  Both are left alone when the fields go through a
draft once more, so an entity comes out of its own fields as it went in (`BuiltFrom`,
`builtFrom_of_build`).  That also holds when the fields are given to a constructor as arguments,
because a value that came from arguments once is the same as an argument
(`Argument.toValue_ofValue`, `ofArguments_arguments_eq`).

An entity's map is written like the map that it was built with, if that one can be written
(`toJson_mapping_of_build`).  `written_as_built` puts both together.
-/
import CodeOutline.Entity.Draft
import CodeOutline.Proofs.Entity.Hashing
import CodeOutline.Proofs.Entity.Nesting
import CodeOutline.Proofs.Metadata.Freezing

namespace CodeOutline

open Outcome

/-! ### Entities from their own fields -/

namespace Entity

/-- The map that an entity is annotated with: the attributes of a tag, and the metadata of anything
else.  A position has none. -/
def mapping? : Entity → Option Metadata
  | .position _ => none
  | .scope s => some s.metadata
  | .reference r => some r.metadata
  | .tag t => some t.attributes
  | .documentation d => some d.metadata
  | .definition d => some d.metadata
  | .unit u => some u.metadata

/-- The place of that map in a draft. -/
def Draft.mapping? : Entity.Draft → Option (Slot (List (Scalar × Value)))
  | .position _ => none
  | .scope d => some d.metadata
  | .reference d => some d.metadata
  | .tag d => some d.attributes
  | .documentation d => some d.metadata
  | .definition d => some d.metadata
  | .unit d => some d.metadata

/-- The draft that holds the fields of an entity. -/
def toDraft : Entity → Entity.Draft
  | .position p => .position ⟨.ok p.line, .ok p.column, .ok p.offset⟩
  | .scope s =>
    .scope (Scope.Draft.filled s.level s.start s.stop s.children s.metadata.toEntries)
  | .reference r => .reference ⟨.ok r.kind, r.targetName, .ok r.position, .ok r.metadata.toEntries⟩
  | .tag t => .tag ⟨t.name, t.value, .ok t.attributes.toEntries⟩
  | .documentation d =>
    .documentation ⟨.ok d.format, d.description, .ok d.position, .ok (d.tags.map .ok),
      .ok d.metadata.toEntries⟩
  | .definition d =>
    .definition ⟨d.name, .ok d.kind, .ok d.scope, .ok d.position, .ok (d.references.map .ok),
      .ok d.documentation, .ok d.metadata.toEntries, d.id⟩
  | .unit u =>
    .unit ⟨u.name, .ok u.type, .ok (u.definitions.map .ok), .ok (u.dependencies.map .ok),
      .ok u.documentation, .ok u.metadata.toEntries, u.id⟩

end Entity

theorem Value.orEmpty_orEmpty (v : Value) : v.orEmpty.orEmpty = v.orEmpty := by
  cases v with
  | scalar s => cases s <;> rfl
  | _ => rfl

theorem idOr_idOr {fresh : String} (hfresh : Text.allBlank fresh = false) (fresh' : String)
    (id : Value) : idOr fresh' (idOr fresh id) = idOr fresh id := by
  by_cases h : id.isBlank = true
  · rw [show idOr fresh id = fresh from if_pos h]
    exact if_neg (by simp [Value.isBlank, hfresh])
  · rw [show idOr fresh id = id from if_neg h]
    exact if_neg h

/-- Metadata is what a map has become that was put into a place. -/
def Metadata.IsMadeFrom (m : Metadata) (place : Slot (List (Scalar × Value))) : Prop :=
  ∃ es, place = .ok es ∧ m = Metadata.ofEntries es

/-! ### Building an entity anew -/

theorem Scope.of_build {d : Draft} {s : Scope} (h : d.build = .ok s) :
    s.metadata.IsMadeFrom d.metadata ∧
    (Draft.filled s.level s.start s.stop s.children s.metadata.toEntries).build = .ok s := by
  obtain ⟨es, rfl⟩ := Draft.eq_filled_of_build h
  obtain ⟨level, start, stop, children, metadata⟩ := s
  rw [Draft.build_filled] at h ⊢
  split at h
  · cases h
  · next hends =>
    split at h
    · next hin =>
      cases h
      rw [if_neg hends, if_pos hin, Metadata.ofEntries_ofEntries]
      exact ⟨⟨es, rfl, rfl⟩, rfl⟩
    · cases h

theorem Reference.of_build {d : Draft} {r : Reference} (h : d.build = .ok r) :
    r.metadata.IsMadeFrom d.metadata ∧ r.targetName = d.targetName ∧
    Draft.build ⟨.ok r.kind, r.targetName, .ok r.position, .ok r.metadata.toEntries⟩ = .ok r := by
  obtain ⟨kind, -, h⟩ := bind_eq_ok_iff.mp h
  obtain ⟨hname, h⟩ := require_bind_eq_ok_iff.mp h
  obtain ⟨position, -, h⟩ := bind_eq_ok_iff.mp h
  obtain ⟨es, hes, h⟩ := bind_eq_ok_iff.mp h
  cases h
  refine ⟨⟨es, hes, rfl⟩, rfl, ?_⟩
  simp only [Draft.build, ok_bind, require, if_pos hname, Metadata.ofEntries_ofEntries, pure_eq]

theorem DocumentationTag.of_build {d : Draft} {t : DocumentationTag} (h : d.build = .ok t) :
    t.attributes.IsMadeFrom d.attributes ∧ t.name = d.name ∧ t.value = d.value.orEmpty ∧
    Draft.build ⟨t.name, t.value, .ok t.attributes.toEntries⟩ = .ok t := by
  obtain ⟨hname, h⟩ := require_bind_eq_ok_iff.mp h
  obtain ⟨es, hes, h⟩ := bind_eq_ok_iff.mp h
  cases h
  refine ⟨⟨es, hes, rfl⟩, rfl, rfl, ?_⟩
  simp only [Draft.build, ok_bind, require, if_pos hname, Metadata.ofEntries_ofEntries,
    Value.orEmpty_orEmpty, pure_eq]

theorem Documentation.of_build {d : Draft} {doc : Documentation} (h : d.build = .ok doc) :
    doc.metadata.IsMadeFrom d.metadata ∧ doc.description = d.description.orEmpty ∧
    Draft.build ⟨.ok doc.format, doc.description, .ok doc.position, .ok (doc.tags.map .ok),
      .ok doc.metadata.toEntries⟩ = .ok doc := by
  obtain ⟨format, -, h⟩ := bind_eq_ok_iff.mp h
  obtain ⟨position, -, h⟩ := bind_eq_ok_iff.mp h
  obtain ⟨slots, -, h⟩ := bind_eq_ok_iff.mp h
  obtain ⟨tags, -, h⟩ := bind_eq_ok_iff.mp h
  obtain ⟨es, hes, h⟩ := bind_eq_ok_iff.mp h
  cases h
  refine ⟨⟨es, hes, rfl⟩, rfl, ?_⟩
  simp only [Draft.build, ok_bind, fillAll_map_ok, Metadata.ofEntries_ofEntries,
    Value.orEmpty_orEmpty, pure_eq]

theorem Definition.of_build {d : Draft} {fresh : String} {x : Definition}
    (h : d.build fresh = .ok x) :
    x.metadata.IsMadeFrom d.metadata ∧ x.name = d.name ∧ x.id = idOr fresh d.id ∧
    ∀ fresh', Text.allBlank fresh = false → Draft.build fresh'
      ⟨x.name, .ok x.kind, .ok x.scope, .ok x.position, .ok (x.references.map .ok),
        .ok x.documentation, .ok x.metadata.toEntries, x.id⟩ = .ok x := by
  obtain ⟨c, hc, rfl⟩ := map_eq_ok_iff.mp h
  clear h
  obtain ⟨hname, h⟩ := require_bind_eq_ok_iff.mp hc
  obtain ⟨kind, -, h⟩ := bind_eq_ok_iff.mp h
  obtain ⟨scope, -, h⟩ := bind_eq_ok_iff.mp h
  obtain ⟨position, -, h⟩ := bind_eq_ok_iff.mp h
  obtain ⟨documentation, -, h⟩ := bind_eq_ok_iff.mp h
  obtain ⟨slots, -, h⟩ := bind_eq_ok_iff.mp h
  obtain ⟨references, -, h⟩ := bind_eq_ok_iff.mp h
  obtain ⟨es, hes, h⟩ := bind_eq_ok_iff.mp h
  cases h
  refine ⟨⟨es, hes, rfl⟩, rfl, rfl, fun fresh' hfresh => ?_⟩
  simp only [Draft.build, Draft.content, ok_bind, require, if_pos hname, fillAll_map_ok,
    Metadata.ofEntries_ofEntries, pure_eq, idOr_idOr hfresh]
  rfl

theorem CodeUnit.of_build {d : Draft} {fresh : String} {u : CodeUnit}
    (h : d.build fresh = .ok u) :
    u.metadata.IsMadeFrom d.metadata ∧ u.name = d.name ∧ u.id = idOr fresh d.id ∧
    ∀ fresh', Text.allBlank fresh = false → Draft.build fresh'
      ⟨u.name, .ok u.type, .ok (u.definitions.map .ok), .ok (u.dependencies.map .ok),
        .ok u.documentation, .ok u.metadata.toEntries, u.id⟩ = .ok u := by
  obtain ⟨hname, h⟩ := require_bind_eq_ok_iff.mp h
  obtain ⟨type, -, h⟩ := bind_eq_ok_iff.mp h
  obtain ⟨documentation, -, h⟩ := bind_eq_ok_iff.mp h
  obtain ⟨slots, -, h⟩ := bind_eq_ok_iff.mp h
  obtain ⟨definitions, -, h⟩ := bind_eq_ok_iff.mp h
  obtain ⟨slots', -, h⟩ := bind_eq_ok_iff.mp h
  obtain ⟨dependencies, -, h⟩ := bind_eq_ok_iff.mp h
  obtain ⟨es, hes, h⟩ := bind_eq_ok_iff.mp h
  cases h
  refine ⟨⟨es, hes, rfl⟩, rfl, rfl, fun fresh' hfresh => ?_⟩
  simp only [Draft.build, ok_bind, require, if_pos hname, fillAll_map_ok,
    Metadata.ofEntries_ofEntries, pure_eq, idOr_idOr hfresh]

namespace Entity

/-- The fields of an entity that may be values of any type. -/
def values : Entity → List Value
  | .position _ | .scope _ => []
  | .reference r => [r.targetName]
  | .tag t => [t.name, t.value]
  | .documentation d => [d.description]
  | .definition d => [d.name, d.id]
  | .unit u => [u.name, u.id]

/-- The places of a draft for these fields. -/
def Draft.values : Entity.Draft → List Value
  | .position _ | .scope _ => []
  | .reference d => [d.targetName]
  | .tag d => [d.name, d.value]
  | .documentation d => [d.description]
  | .definition d => [d.name, d.id]
  | .unit d => [d.name, d.id]

theorem orEmpty_eq (v : Value) : v.orEmpty = v ∨ ∃ s, v.orEmpty = .text s := by
  unfold Value.orEmpty
  split
  · exact .inr ⟨"", rfl⟩
  · exact .inl rfl

theorem idOr_eq (fresh : String) (id : Value) :
    idOr fresh id = id ∨ ∃ s, idOr fresh id = .text s := by
  unfold idOr
  split
  · exact .inr ⟨fresh, rfl⟩
  · exact .inl rfl

/-- What is known of an entity and the draft it has been built from.  The map of the entity is made
from that of the draft, every value is that of the draft or a text that has been put in its place,
and the draft that holds the fields of the entity gives the entity again. -/
structure BuiltFrom (d : Entity.Draft) (fresh : String) (e : Entity) : Prop where
  mapping : ∀ m, e.mapping? = some m ↔ ∃ es, d.mapping? = some (.ok es) ∧ m = Metadata.ofEntries es
  values : List.Forall₂ (fun v w => v = w ∨ ∃ s, v = .text s) e.values d.values
  again : ∀ fresh', Text.allBlank fresh = false → e.toDraft.build fresh' = .ok e

theorem some_eq_some_iff_of_isMadeFrom {m : Metadata} {place : Slot (List (Scalar × Value))}
    (h : m.IsMadeFrom place) (m' : Metadata) :
    some m = some m' ↔ ∃ es, some place = some (.ok es) ∧ m' = Metadata.ofEntries es := by
  obtain ⟨es, rfl, rfl⟩ := h
  simp [eq_comm]

theorem builtFrom_of_build {d : Entity.Draft} {fresh : String} {e : Entity}
    (h : d.build fresh = .ok e) : BuiltFrom d fresh e := by
  cases d with
  | position d =>
    obtain ⟨p, -, rfl⟩ := map_eq_ok_iff.mp h
    refine ⟨by simp [mapping?, Draft.mapping?], .nil, fun fresh' _ => ?_⟩
    show (Position.make p.line p.column p.offset).map Entity.position = _
    rw [Position.make_ofNat]
    rfl
  | scope d =>
    obtain ⟨s, hs, rfl⟩ := map_eq_ok_iff.mp h
    obtain ⟨hmap, hagain⟩ := Scope.of_build hs
    exact ⟨some_eq_some_iff_of_isMadeFrom hmap, .nil,
      fun _ _ => map_eq_ok_iff.mpr ⟨s, hagain, rfl⟩⟩
  | reference d =>
    obtain ⟨r, hr, rfl⟩ := map_eq_ok_iff.mp h
    obtain ⟨hmap, hname, hagain⟩ := Reference.of_build hr
    exact ⟨some_eq_some_iff_of_isMadeFrom hmap, .cons (.inl hname) .nil,
      fun _ _ => map_eq_ok_iff.mpr ⟨r, hagain, rfl⟩⟩
  | tag d =>
    obtain ⟨t, ht, rfl⟩ := map_eq_ok_iff.mp h
    obtain ⟨hmap, hname, hvalue, hagain⟩ := DocumentationTag.of_build ht
    exact ⟨some_eq_some_iff_of_isMadeFrom hmap,
      .cons (.inl hname) (.cons (hvalue ▸ orEmpty_eq d.value) .nil),
      fun _ _ => map_eq_ok_iff.mpr ⟨t, hagain, rfl⟩⟩
  | documentation d =>
    obtain ⟨doc, hdoc, rfl⟩ := map_eq_ok_iff.mp h
    obtain ⟨hmap, hdescription, hagain⟩ := Documentation.of_build hdoc
    exact ⟨some_eq_some_iff_of_isMadeFrom hmap,
      .cons (hdescription ▸ orEmpty_eq d.description) .nil,
      fun _ _ => map_eq_ok_iff.mpr ⟨doc, hagain, rfl⟩⟩
  | definition d =>
    obtain ⟨x, hx, rfl⟩ := map_eq_ok_iff.mp h
    obtain ⟨hmap, hname, hid, hagain⟩ := Definition.of_build hx
    exact ⟨some_eq_some_iff_of_isMadeFrom hmap,
      .cons (.inl hname) (.cons (hid ▸ idOr_eq fresh d.id) .nil),
      fun fresh' hfresh => map_eq_ok_iff.mpr ⟨x, hagain fresh' hfresh, rfl⟩⟩
  | unit d =>
    obtain ⟨u, hu, rfl⟩ := map_eq_ok_iff.mp h
    obtain ⟨hmap, hname, hid, hagain⟩ := CodeUnit.of_build hu
    exact ⟨some_eq_some_iff_of_isMadeFrom hmap,
      .cons (.inl hname) (.cons (hid ▸ idOr_eq fresh d.id) .nil),
      fun fresh' hfresh => map_eq_ok_iff.mpr ⟨u, hagain fresh' hfresh, rfl⟩⟩

end Entity

/-! ### Values as arguments -/

theorem keepNew_of_pairwise {α : Type} {agrees : α → α → Bool} {kept items : List α}
    (h : (kept ++ items).Pairwise (fun a b => agrees a b = false)) :
    keepNew agrees kept items = kept ++ items := by
  induction items generalizing kept with
  | nil => exact (List.append_nil kept).symm
  | cons a items ih =>
    have hnew : kept.any (fun k => agrees k a) = false := by
      rw [List.any_eq_false]
      intro k hk
      simp [(List.pairwise_append.mp h).2.2 k hk a List.mem_cons_self]
    rw [List.append_cons] at h
    rw [keepNew_cons, hnew, if_neg Bool.false_ne_true, ih h, ← List.append_cons]

namespace Argument

mutual

/-- A value as an argument. -/
def ofValue : Value → Argument
  | .scalar s => .scalar s
  | .list items => .list (ofValues items)
  | .set members => .set (members.map .scalar)
  | .map entries => .map (ofEntries entries)

/-- Values as arguments. -/
def ofValues : List Value → List Argument
  | [] => []
  | v :: vs => ofValue v :: ofValues vs

/-- Entries as those of an argument. -/
def ofEntries : List (Scalar × Value) → List (Argument × Argument)
  | [] => []
  | (k, v) :: es => (.scalar k, ofValue v) :: ofEntries es

end

theorem toValues_ofValues {vs : List Value} (h : ∀ v ∈ vs, (ofValue v).toValue = v) :
    toValues (ofValues vs) = vs := by
  induction vs with
  | nil => rfl
  | cons v vs ih =>
    obtain ⟨hv, hvs⟩ := List.forall_mem_cons.mp h
    rw [ofValues, toValues, hv, ih hvs]

theorem toEntries_ofEntries {es : List (Scalar × Value)}
    (h : ∀ e ∈ es, (ofValue e.2).toValue = e.2) : toEntries (ofEntries es) = es := by
  induction es with
  | nil => rfl
  | cons e es ih =>
    obtain ⟨he, hes⟩ := List.forall_mem_cons.mp h
    rw [ofEntries, toEntries, scalar?, he, ih hes]

/-- A value without repetitions is the same when it is given as an argument. -/
theorem toValue_ofValue {v : Value} (h : v.Proper) : (ofValue v).toValue = v := by
  induction h with
  | scalar s => rfl
  | list _ ih => rw [ofValue, toValue, toValues_ofValues ih]
  | @set members hdistinct =>
    have hmembers : (members.map Argument.scalar).filterMap scalar? = members := by
      rw [List.filterMap_map]
      exact List.filterMap_some
    rw [ofValue, toValue, hmembers, Value.ofMembers]
    exact congrArg Value.set (keepNew_of_pairwise hdistinct)
  | map hdistinct _ ih =>
    rw [ofValue, toValue, toEntries_ofEntries ih, Value.ofEntries]
    exact congrArg Value.map (Assoc.insertAll_of_pairwise hdistinct)

/-- Metadata as an argument. -/
def ofMetadata (m : Metadata) : Argument := ofValue (.map m.toEntries)

theorem expectMapping_ofMetadata {m : Metadata} (h : m.Proper) (field : String) :
    expectMapping field (ofMetadata m) = .ok m.toEntries := by
  have hvalue : (ofMetadata m).toValue = .map m.toEntries := toValue_ofValue h
  rw [ofMetadata, ofValue, toValue, Value.ofEntries] at hvalue
  rw [ofMetadata, ofValue, expectMapping]
  exact congrArg Except.ok (Value.map.inj hvalue)

/-- Entities as arguments.  The number of an entity only matters where it stands among values. -/
def ofEntities {α : Type} (wrap : α → Entity) (as : List α) : Argument :=
  .list (as.map (fun a => .entity (wrap a) 0))

theorem expect_entity {α : Type} {pick : Argument → Option α} {e : Entity} {number : Nat} {x : α}
    (h : pick (.entity e number) = some x) (expected field : String) :
    expect pick expected field (.entity e number) = .ok x := by
  simp only [expect, h]

theorem expectElements_ofEntities {α : Type} {pick : Argument → Option α} (wrap : α → Entity)
    (h : ∀ a, pick (.entity (wrap a) 0) = some a) (expected field : String) (as : List α) :
    expectElements pick expected field (ofEntities wrap as) = .ok (as.map .ok) := by
  show Except.ok ((as.map _).map _) = _
  rw [List.map_map]
  exact congrArg Except.ok (List.map_congr_left fun a _ => expect_entity (h a) _ _)

/-- An entity, or nothing, as an argument. -/
def ofOption {α : Type} (wrap : α → Entity) : Option α → Argument
  | none => .null
  | some a => .entity (wrap a) 0

theorem expectOption_ofOption {α : Type} {pick : Argument → Option α} (wrap : α → Entity)
    (h : ∀ a, pick (.entity (wrap a) 0) = some a) (expected field : String) (a : Option α) :
    expectOption pick expected field (ofOption wrap a) = .ok a := by
  cases a with
  | none => rfl
  | some a =>
    show (expect pick expected field (.entity (wrap a) 0)).map some = _
    rw [expect_entity (h a)]
    rfl

end Argument

/-! ### Entities from named arguments -/

namespace Entity

open Argument

/-- The named arguments that hold the fields of an entity. -/
def arguments : Entity → List (String × Argument)
  | .position p =>
    [("line", .scalar (.int p.line)), ("column", .scalar (.int p.column)),
      ("offset", .scalar (.int p.offset))]
  | .scope s =>
    [("level", .scalar (.word (.scopeLevel s.level))), ("start", .entity (.position s.start) 0),
      ("end", .entity (.position s.stop) 0),
      ("children", ofEntities .scope s.children),
      ("metadata", ofMetadata s.metadata)]
  | .reference r =>
    [("kind", .scalar (.word (.referenceKind r.kind))), ("target_name", ofValue r.targetName),
      ("position", ofOption .position r.position), ("metadata", ofMetadata r.metadata)]
  | .tag t =>
    [("name", ofValue t.name), ("value", ofValue t.value), ("attributes", ofMetadata t.attributes)]
  | .documentation d =>
    [("format", .scalar (.word (.documentationFormat d.format))),
      ("description", ofValue d.description), ("position", ofOption .position d.position),
      ("tags", ofEntities .tag d.tags),
      ("metadata", ofMetadata d.metadata)]
  | .definition d =>
    [("name", ofValue d.name), ("kind", .scalar (.word (.definitionKind d.kind))),
      ("scope", .entity (.scope d.scope) 0), ("position", .entity (.position d.position) 0),
      ("references", ofEntities .reference d.references),
      ("documentation", ofOption .documentation d.documentation),
      ("metadata", ofMetadata d.metadata),
      ("id", ofValue d.id)]
  | .unit u =>
    [("name", ofValue u.name), ("type", .scalar (.word (.unitType u.type))),
      ("definitions", ofEntities .definition u.definitions),
      ("dependencies", ofEntities .unit u.dependencies),
      ("documentation", ofOption .documentation u.documentation),
      ("metadata", ofMetadata u.metadata),
      ("id", ofValue u.id)]

/-- The values and the map of an entity have no repetitions. -/
structure ProperFields (e : Entity) : Prop where
  values : ∀ v ∈ e.values, v.Proper
  mapping : ∀ m, e.mapping? = some m → m.Proper

theorem checkNames_arguments (e : Entity) :
    e.type.checkNames (e.arguments.map Prod.fst) = .ok () := by
  cases e <;> rfl

/-- The fields of an entity fill the places of a draft as they are. -/
theorem ofArguments_arguments_eq {e : Entity} (h : e.ProperFields) :
    Draft.ofArguments e.type e.arguments = e.toDraft := by
  cases e with
  | position p => rfl
  | scope s =>
    show Entity.Draft.scope ⟨.ok s.level, .ok s.start, .ok s.stop,
      expectElements scope? "Scope" "children" (ofEntities .scope s.children),
      expectMapping "metadata" (ofMetadata s.metadata)⟩ = _
    rw [expectElements_ofEntities .scope (fun _ => rfl),
      expectMapping_ofMetadata (h.mapping s.metadata rfl)]
    rfl
  | reference r =>
    show Entity.Draft.reference ⟨.ok r.kind, (ofValue r.targetName).toValue,
      expectOption position? "Position" "position" (ofOption .position r.position),
      expectMapping "metadata" (ofMetadata r.metadata)⟩ = _
    rw [toValue_ofValue (h.values r.targetName (by simp [values])),
      expectOption_ofOption .position (fun _ => rfl),
      expectMapping_ofMetadata (h.mapping r.metadata rfl)]
    rfl
  | tag t =>
    show Entity.Draft.tag ⟨(ofValue t.name).toValue, (ofValue t.value).toValue,
      expectMapping "attributes" (ofMetadata t.attributes)⟩ = _
    rw [toValue_ofValue (h.values t.name (by simp [values])),
      toValue_ofValue (h.values t.value (by simp [values])),
      expectMapping_ofMetadata (h.mapping t.attributes rfl)]
    rfl
  | documentation d =>
    show Entity.Draft.documentation ⟨.ok d.format, (ofValue d.description).toValue,
      expectOption position? "Position" "position" (ofOption .position d.position),
      expectElements tag? "DocumentationTag" "tags" (ofEntities .tag d.tags),
      expectMapping "metadata" (ofMetadata d.metadata)⟩ = _
    rw [toValue_ofValue (h.values d.description (by simp [values])),
      expectOption_ofOption .position (fun _ => rfl),
      expectElements_ofEntities .tag (fun _ => rfl),
      expectMapping_ofMetadata (h.mapping d.metadata rfl)]
    rfl
  | definition d =>
    show Entity.Draft.definition ⟨(ofValue d.name).toValue, .ok d.kind, .ok d.scope, .ok d.position,
      expectElements reference? "Reference" "references" (ofEntities .reference d.references),
      expectOption documentation? "Documentation" "documentation"
        (ofOption .documentation d.documentation),
      expectMapping "metadata" (ofMetadata d.metadata), (ofValue d.id).toValue⟩ = _
    rw [toValue_ofValue (h.values d.name (by simp [values])),
      expectElements_ofEntities .reference (fun _ => rfl),
      expectOption_ofOption .documentation (fun _ => rfl),
      expectMapping_ofMetadata (h.mapping d.metadata rfl),
      toValue_ofValue (h.values d.id (by simp [values]))]
    rfl
  | unit u =>
    show Entity.Draft.unit ⟨(ofValue u.name).toValue, .ok u.type,
      expectElements definition? "Definition" "definitions" (ofEntities .definition u.definitions),
      expectElements unit? "CodeUnit" "dependencies" (ofEntities .unit u.dependencies),
      expectOption documentation? "Documentation" "documentation"
        (ofOption .documentation u.documentation),
      expectMapping "metadata" (ofMetadata u.metadata), (ofValue u.id).toValue⟩ = _
    rw [toValue_ofValue (h.values u.name (by simp [values])),
      expectElements_ofEntities .definition (fun _ => rfl),
      expectElements_ofEntities .unit (fun _ => rfl),
      expectOption_ofOption .documentation (fun _ => rfl),
      expectMapping_ofMetadata (h.mapping u.metadata rfl),
      toValue_ofValue (h.values u.id (by simp [values]))]
    rfl

theorem proper_of_expectMapping {field : String} {a : Argument} {es : List (Scalar × Value)}
    (h : expectMapping field a = .ok es) : ∀ e ∈ es, e.2.Proper := by
  unfold expectMapping at h
  split at h
  · cases h
    simp
  · cases h
    exact Assoc.forall_mem_insertAll (forall_proper_toEntries _) (by simp)
  · cases h

/-- Arguments put values without repetitions into the places of a draft. -/
theorem Draft.proper_ofArguments (t : EntityType) (args : List (String × Argument)) :
    (∀ v ∈ (Draft.ofArguments t args).values, v.Proper) ∧
    ∀ es, (Draft.ofArguments t args).mapping? = some (.ok es) → ∀ e ∈ es, e.2.Proper := by
  constructor
  · cases t with
    | position | scope => exact fun v hv => nomatch hv
    | reference => exact List.forall_mem_singleton.mpr (proper_toValue _)
    | tag =>
      refine List.forall_mem_cons.mpr ⟨proper_toValue _, List.forall_mem_singleton.mpr ?_⟩
      dsimp only
      split
      · exact proper_toValue _
      · exact .scalar _
    | documentation =>
      refine List.forall_mem_singleton.mpr ?_
      dsimp only
      split
      · exact proper_toValue _
      · exact .scalar _
    | definition | unit =>
      exact List.forall_mem_cons.mpr
        ⟨proper_toValue _, List.forall_mem_singleton.mpr (proper_toValue _)⟩
  · intro es hplace
    cases t with
    | position => cases hplace
    | _ => exact proper_of_expectMapping (Option.some.inj hplace)

theorem ofArguments_eq_ok_iff {fresh : String} {t : EntityType} {args : List (String × Argument)}
    {e : Entity} :
    Entity.ofArguments fresh t args = .ok e ↔
      t.checkNames (args.map Prod.fst) = .ok () ∧
        (Draft.ofArguments t args).build fresh = .ok e := by
  rw [Entity.ofArguments, bind_eq_ok_iff]
  constructor
  · rintro ⟨⟨⟩, hnames, hbuild⟩
    exact ⟨hnames, hbuild⟩
  · rintro ⟨hnames, hbuild⟩
    exact ⟨(), hnames, hbuild⟩

theorem properFields_of_ofArguments {fresh : String} {t : EntityType}
    {args : List (String × Argument)} {e : Entity} (h : Entity.ofArguments fresh t args = .ok e) :
    e.ProperFields := by
  have hfrom := builtFrom_of_build (ofArguments_eq_ok_iff.mp h).2
  obtain ⟨hvalues, hmapping⟩ := Draft.proper_ofArguments t args
  constructor
  · intro v hv
    obtain ⟨w, hw, rfl | ⟨s, rfl⟩⟩ := exists_of_forall₂_of_mem hfrom.values.flip hv
    · exact hvalues v hw
    · exact .scalar _
  · intro m hm
    obtain ⟨es, hplace, rfl⟩ := (hfrom.mapping m).mp hm
    exact Metadata.proper_ofEntries (hmapping es hplace)

/-! ### Entities that have been built -/

/-- The entities in the fields of an entity. -/
def inner : Entity → List Entity
  | .position _ | .tag _ => []
  | .scope s => .position s.start :: .position s.stop :: s.children.map .scope
  | .reference r => r.position.toList.map .position
  | .documentation d => d.position.toList.map .position ++ d.tags.map .tag
  | .definition d =>
    .scope d.scope :: .position d.position :: d.references.map .reference ++
      d.documentation.toList.map .documentation
  | .unit u =>
    u.definitions.map .definition ++ u.dependencies.map .unit ++
      u.documentation.toList.map .documentation

/-- The entities that come from their constructors, and so do the entities in them. -/
inductive Built : Entity → Prop
  | construct {fresh : String} {t : EntityType} {args : List (String × Argument)} {e : Entity}
      (hfresh : Text.allBlank fresh = false) (inner : ∀ c ∈ e.inner, Built c)
      (built : Entity.ofArguments fresh t args = .ok e) : Built e

theorem Scope.asValues_eq (ss : List Scope) : Scope.asValues ss = ss.map Scope.asValue := by
  induction ss with
  | nil => rfl
  | cons s ss ih => rw [Scope.asValues, ih, List.map_cons]

theorem proper_list_iff {vs : List Value} : (Value.list vs).Proper ↔ ∀ v ∈ vs, v.Proper :=
  ⟨fun h => by cases h with | list h => exact h, .list⟩

theorem proper_position (p : Position) : p.asValue.Proper := by
  simp [Position.asValue, proper_list_iff, Value.Proper.scalar]

theorem proper_optionPosition (p : Option Position) : (Position.optionAsValue p).Proper := by
  cases p with
  | none => exact .scalar _
  | some p => exact proper_position p

/-- The parts of an entity have no repetitions if its own fields and the entities in them have
none. -/
theorem ProperFields.proper {e : Entity} (h : e.ProperFields) (hinner : ∀ c ∈ e.inner, c.Proper) :
    e.Proper := by
  cases e with
  | position p => exact proper_position p
  | scope s =>
    have hchildren : ∀ c ∈ s.children, c.asValue.Proper := fun c hc =>
      hinner (.scope c) (by simp [inner, hc])
    have hmap : s.metadata.asValue.Proper := h.mapping s.metadata rfl
    obtain ⟨level, start, stop, children, metadata⟩ := s
    simp only [Proper, asValue, Scope.asValue, Scope.asValues_eq, proper_list_iff,
      List.forall_mem_cons, List.forall_mem_map]
    exact ⟨.scalar _, proper_position _, proper_position _, hchildren, hmap, by simp⟩
  | reference r =>
    have hname := h.values r.targetName (by simp [Entity.values])
    simp only [Proper, asValue, Reference.asValue, proper_list_iff, List.forall_mem_cons]
    exact ⟨.scalar _, hname, proper_optionPosition _, h.mapping r.metadata rfl, by simp⟩
  | tag t =>
    have hname := h.values t.name (by simp [Entity.values])
    have hvalue := h.values t.value (by simp [Entity.values])
    simp only [Proper, asValue, DocumentationTag.asValue, proper_list_iff, List.forall_mem_cons]
    exact ⟨hname, hvalue, h.mapping t.attributes rfl, by simp⟩
  | documentation d =>
    have hdescription := h.values d.description (by simp [Entity.values])
    have htags : ∀ t ∈ d.tags, t.asValue.Proper := fun t ht =>
      hinner (.tag t) (by simp [inner, ht])
    simp only [Proper, asValue, Documentation.asValue, proper_list_iff, List.forall_mem_cons,
      List.forall_mem_map]
    exact ⟨.scalar _, hdescription, proper_optionPosition _, htags, h.mapping d.metadata rfl,
      by simp⟩
  | definition d => exact h.values d.id (by simp [Entity.values])
  | unit u => exact h.values u.id (by simp [Entity.values])

theorem Built.proper {e : Entity} (h : Built e) : e.Proper := by
  induction h with
  | construct _ _ built ih => exact (properFields_of_ofArguments built).proper ih

/-! ### Freezing -/

/-- The argument of a type for the map. -/
def mappingName? : EntityType → Option String
  | .position => none
  | .tag => some "attributes"
  | _ => some "metadata"

theorem mapping?_ofArguments {t : EntityType} {args : List (String × Argument)} {name : String}
    {entries : List (Argument × Argument)} (hname : mappingName? t = some name)
    (hargs : Assoc.find? (· == ·) name args = some (.map entries)) :
    ∃ es, (Draft.ofArguments t args).mapping? = some (.ok es) ∧
      (Argument.map entries).toValue = .map es := by
  have harg : expectMapping name ((Assoc.find? (· == ·) name args).getD .null)
      = .ok (Assoc.ofList Scalar.same (toEntries entries)) := by
    rw [hargs]
    rfl
  refine ⟨Assoc.ofList Scalar.same (toEntries entries), ?_, rfl⟩
  cases t <;> cases hname <;> exact congrArg some harg

/-- The map of an entity that has been built is written like the map that it has been built with. -/
theorem toJson_mapping_of_build {d : Entity.Draft} {fresh : String} {e : Entity}
    {es : List (Scalar × Value)} {j : Json} (hplace : d.mapping? = some (.ok es))
    (h : d.build fresh = .ok e) (hj : (Value.map es).toJson = .ok j) :
    ∃ m, e.mapping? = some m ∧ m.toJson = .ok j ∧ (Value.map es).Depicts j :=
  ⟨Metadata.ofEntries es, ((builtFrom_of_build h).mapping _).mpr ⟨es, hplace, rfl⟩,
    Metadata.toJson_ofEntries hj, Value.depicts_of_toJson _ _ hj⟩

/-- An entity that comes from its constructor comes from its own fields, too. -/
theorem Built.ofArguments_arguments {e : Entity} (h : Built e) (fresh : String) :
    Entity.ofArguments fresh e.type e.arguments = .ok e := by
  cases h with
  | construct hfresh _ built =>
    have hagain := (builtFrom_of_build (ofArguments_eq_ok_iff.mp built).2).again fresh hfresh
    rw [ofArguments_eq_ok_iff, ofArguments_arguments_eq (properFields_of_ofArguments built)]
    exact ⟨checkNames_arguments e, hagain⟩

/-- Attributes with a number and its text as keys, and a map, a list, a set and a word inside. -/
def mixedEntries : List (Argument × Argument) :=
  [(.scalar (.int 1), .scalar (.text "first")),
    (.null, .list [.null, .scalar (.word (.documentationFormat .javadoc))]),
    (.scalar (.text "1"), .map [(.scalar (.int 2), .scalar (.text "x")),
      (.scalar (.text "2"), .set [.scalar (.int 3), .scalar (.int 2)])])]

/-- The arguments for a tag with these attributes. -/
def mixedTag : List (String × Argument) :=
  [("name", .scalar (.text "param")), ("value", .null), ("attributes", .map mixedEntries)]

end Entity

end CodeOutline
