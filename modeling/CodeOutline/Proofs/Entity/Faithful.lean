/-
CodeOutline/Proofs/Entity/Faithful.lean

What is written of an entity tells it.

Two entities are alike if all their fields agree, at any depth, metadata up to the order of keys;
units need not have the same dependencies, but dependencies of the same ids and names.

An object has its members under fixed names, so objects are equal exactly if each member of the one
equals that of the other.  Words are told apart by their codes, positions by their numbers, and
nothing from a position or a piece of documentation, since neither is written as null.  So entities
of elementary parts are told apart by what is written of them with ids
(`Definition.tellsApart`, `CodeUnit.tellsApart`).
-/
import CodeOutline.Proofs.Entity.Elementary

namespace CodeOutline

open Outcome

/-! ### Likeness -/

mutual

/-- Whether two scopes agree, and the scopes in them. -/
def Scope.Alike : Scope → Scope → Prop
  | ⟨l, b, e, cs, m⟩, ⟨l', b', e', cs', m'⟩ =>
    l = l' ∧ b = b' ∧ e = e' ∧ Scope.AllAlike cs cs' ∧ m.Alike m'

/-- Whether two lists of scopes agree one by one. -/
def Scope.AllAlike : List Scope → List Scope → Prop
  | [], [] => True
  | s :: ss, t :: ts => s.Alike t ∧ Scope.AllAlike ss ts
  | _, _ => False

end

theorem Scope.allAlike_iff {ss ts : List Scope} :
    Scope.AllAlike ss ts ↔ List.Forall₂ Scope.Alike ss ts := by
  induction ss generalizing ts with
  | nil => cases ts <;> simp [AllAlike]
  | cons s ss ih => cases ts <;> simp [AllAlike, ih]

/-- Whether two references agree. -/
@[mk_iff]
structure Reference.Alike (r s : Reference) : Prop where
  kind : r.kind = s.kind
  targetName : r.targetName = s.targetName
  position : r.position = s.position
  metadata : r.metadata.Alike s.metadata

/-- Whether two tags agree. -/
@[mk_iff]
structure DocumentationTag.Alike (t u : DocumentationTag) : Prop where
  name : t.name = u.name
  value : t.value = u.value
  attributes : t.attributes.Alike u.attributes

/-- Whether two pieces of documentation agree, and their tags one by one. -/
@[mk_iff]
structure Documentation.Alike (d e : Documentation) : Prop where
  description : d.description = e.description
  format : d.format = e.format
  position : d.position = e.position
  tags : List.Forall₂ DocumentationTag.Alike d.tags e.tags
  metadata : d.metadata.Alike e.metadata

/-- Whether two definitions agree, and what is in them. -/
@[mk_iff]
structure Definition.Alike (d e : Definition) : Prop where
  id : d.id = e.id
  name : d.name = e.name
  kind : d.kind = e.kind
  scope : d.scope.Alike e.scope
  position : d.position = e.position
  references : List.Forall₂ Reference.Alike d.references e.references
  documentation : Option.Rel Documentation.Alike d.documentation e.documentation
  metadata : d.metadata.Alike e.metadata

/-- Whether two units have the same id and name. -/
def CodeUnit.SameName (u v : CodeUnit) : Prop := u.id = v.id ∧ u.name = v.name

/-- Whether two units agree, and what they own, while the units they depend on have the same ids and
names. -/
@[mk_iff]
structure CodeUnit.Alike (u v : CodeUnit) : Prop where
  id : u.id = v.id
  name : u.name = v.name
  type : u.type = v.type
  definitions : List.Forall₂ Definition.Alike u.definitions v.definitions
  dependencies : List.Forall₂ CodeUnit.SameName u.dependencies v.dependencies
  documentation : Option.Rel Documentation.Alike u.documentation v.documentation
  metadata : u.metadata.Alike v.metadata

/-! ### Texts, words and positions -/

theorem Value.tellsApart_text {v w : Value} (hv : ∃ s, v = .text s) (hw : ∃ s, w = .text s) :
    TellsApart toJson Eq v w := by
  obtain ⟨s, rfl⟩ := hv
  obtain ⟨t, rfl⟩ := hw
  intro j k hj hk
  rw [eq_of_toJson_scalar hj, eq_of_toJson_scalar hk]
  simp [Scalar.toJson]

/-- Words of a set in which each is found by its code have codes of their own. -/
theorem code_eq_iff {α : Type} {code : α → String} {ofCode? : String → Option α}
    (h : ∀ w, ofCode? (code w) = some w) {a b : α} : code a = code b ↔ a = b := by
  refine ⟨fun e => ?_, congrArg code⟩
  rw [← Option.some.injEq, ← h a, ← h b, e]

theorem Position.same_toJson_iff {p q : Position} : p.toJson.Same q.toJson ↔ p = q := by
  obtain ⟨line, column, offset, _, _⟩ := p
  obtain ⟨line', column', offset', _, _⟩ := q
  refine (Json.same_obj_iff_forall₂ (by rfl) (by simp [Assoc.keys])).trans ?_
  simp only [List.forall₂_cons, List.forall₂_nil_left_iff, Json.same_int_iff, Int.natCast_inj,
    mk.injEq, and_true]

theorem Position.same_optionToJson_iff {p q : Option Position} :
    (optionToJson p).Same (optionToJson q) ↔ p = q := by
  cases p with
  | none => cases q <;> simp [optionToJson, toJson]
  | some p =>
    cases q with
    | none => simp [optionToJson, toJson]
    | some q => simp [optionToJson, same_toJson_iff]

/-! ### Scopes, references and documentation -/

theorem Scope.tellsApart {s t : Scope} (hs : AllElementary s.parts) (ht : AllElementary t.parts) :
    TellsApart toJson Alike s t := by
  induction s using Scope.childInduction generalizing t with
  | parent s ih =>
    obtain ⟨hchildren, hmetadata⟩ := forall_parts_iff.mp hs
    obtain ⟨hchildren', hmetadata'⟩ := forall_parts_iff.mp ht
    obtain ⟨level, start, stop, children, metadata⟩ := s
    obtain ⟨level', start', stop', children', metadata'⟩ := t
    intro j k hj hk
    rw [toJson, allToJson_eq, bind_eq_ok_iff] at hj hk
    obtain ⟨js, hjs, hj⟩ := hj
    obtain ⟨ks, hks, hk⟩ := hk
    obtain ⟨m, hm, hj⟩ := bind_eq_ok_iff.mp hj
    obtain ⟨m', hm', hk⟩ := bind_eq_ok_iff.mp hk
    cases hj
    cases hk
    have hitems := itemsSame_iff_of_mapM hjs hks
      fun c hc d hd => ih c hc (hchildren c hc) (hchildren' d hd)
    have hmaps := hmetadata.tellsApart hmetadata' m m' hm hm'
    refine (Json.same_obj_iff_forall₂ (by rfl) (by simp [Assoc.keys])).trans ?_
    simp [Alike, code_eq_iff ScopeLevel.ofCode?_code,
      Position.same_toJson_iff, hitems, allAlike_iff, hmaps]

theorem Reference.tellsApart {r s : Reference} (hr : AllElementary r.parts)
    (hs : AllElementary s.parts) : TellsApart toJson Alike r s := by
  obtain ⟨hname, hmetadata⟩ := forall_parts_iff.mp hr
  obtain ⟨hname', hmetadata'⟩ := forall_parts_iff.mp hs
  intro j k hj hk
  simp only [toJson, bind_eq_ok_iff, pure_eq, Except.ok.injEq] at hj hk
  obtain ⟨n, hn, m, hm, rfl⟩ := hj
  obtain ⟨n', hn', m', hm', rfl⟩ := hk
  have hnames := Value.tellsApart_text hname hname' n n' hn hn'
  have hmaps := hmetadata.tellsApart hmetadata' m m' hm hm'
  refine (Json.same_obj_iff_forall₂ (by rfl) (by simp [Assoc.keys])).trans ?_
  simp [alike_iff, code_eq_iff ReferenceKind.ofCode?_code,
    Position.same_optionToJson_iff, hnames, hmaps]

theorem DocumentationTag.tellsApart {t u : DocumentationTag} (ht : AllElementary t.parts)
    (hu : AllElementary u.parts) : TellsApart toJson Alike t u := by
  obtain ⟨hname, hvalue, hattributes⟩ := forall_parts_iff.mp ht
  obtain ⟨hname', hvalue', hattributes'⟩ := forall_parts_iff.mp hu
  intro j k hj hk
  simp only [toJson, bind_eq_ok_iff, pure_eq, Except.ok.injEq] at hj hk
  obtain ⟨n, hn, v, hv, m, hm, rfl⟩ := hj
  obtain ⟨n', hn', v', hv', m', hm', rfl⟩ := hk
  have hnames := Value.tellsApart_text hname hname' n n' hn hn'
  have hvalues := Value.tellsApart_text hvalue hvalue' v v' hv hv'
  have hmaps := hattributes.tellsApart hattributes' m m' hm hm'
  refine (Json.same_obj_iff_forall₂ (by rfl) (by simp [Assoc.keys])).trans ?_
  simp [alike_iff, hnames, hvalues, hmaps]

theorem Documentation.tellsApart {d e : Documentation} (hd : AllElementary d.parts)
    (he : AllElementary e.parts) : TellsApart toJson Alike d e := by
  obtain ⟨htext, htags, hmetadata⟩ := forall_parts_iff.mp hd
  obtain ⟨htext', htags', hmetadata'⟩ := forall_parts_iff.mp he
  intro j k hj hk
  simp only [toJson, bind_eq_ok_iff, pure_eq, Except.ok.injEq] at hj hk
  obtain ⟨x, hx, js, hjs, m, hm, rfl⟩ := hj
  obtain ⟨x', hx', ks, hks, m', hm', rfl⟩ := hk
  have htexts := Value.tellsApart_text htext htext' x x' hx hx'
  have hitems := itemsSame_iff_of_mapM hjs hks
    fun t ht u hu => DocumentationTag.tellsApart (htags t ht) (htags' u hu)
  have hmaps := hmetadata.tellsApart hmetadata' m m' hm hm'
  refine (Json.same_obj_iff_forall₂ (by rfl) (by simp [Assoc.keys])).trans ?_
  simp [alike_iff, code_eq_iff DocumentationFormat.ofCode?_code,
    Position.same_optionToJson_iff, htexts, hitems, hmaps]

theorem Documentation.exists_of_toJson {d : Documentation} {j : Json} (h : d.toJson = .ok j) :
    ∃ ms, j = .obj ms := by
  simp only [toJson, bind_eq_ok_iff, pure_eq, Except.ok.injEq] at h
  obtain ⟨_, -, _, -, _, -, rfl⟩ := h
  exact ⟨_, rfl⟩

/-- Documentation is told apart from none, too. -/
theorem Documentation.tellsApart_option {d e : Option Documentation}
    (hd : ∀ x ∈ d, AllElementary x.parts) (he : ∀ x ∈ e, AllElementary x.parts) :
    TellsApart optionToJson (Option.Rel Alike) d e := by
  intro j k hj hk
  cases d with
  | none =>
    cases hj
    cases e with
    | none =>
      cases hk
      exact iff_of_true trivial .none
    | some e =>
      obtain ⟨ms, rfl⟩ := exists_of_toJson hk
      exact iff_of_false (by simp) fun h => by cases h
  | some d =>
    cases e with
    | none =>
      cases hk
      obtain ⟨ms, rfl⟩ := exists_of_toJson hj
      exact iff_of_false (by simp) fun h => by cases h
    | some e =>
      rw [tellsApart (hd d rfl) (he e rfl) j k hj hk]
      simp

/-! ### Definitions and units -/

theorem Definition.tellsApart {d e : Definition} (hd : AllElementary d.parts)
    (he : AllElementary e.parts) : TellsApart (toJson true) Alike d e := by
  obtain ⟨hid, hcontent⟩ := forall_parts_iff.mp hd
  obtain ⟨hid', hcontent'⟩ := forall_parts_iff.mp he
  obtain ⟨hname, hscope, hreferences, hdoc, hmetadata⟩ := Content.forall_parts_iff.mp hcontent
  obtain ⟨hname', hscope', hreferences', hdoc', hmetadata'⟩ := Content.forall_parts_iff.mp hcontent'
  intro j k hj hk
  simp only [toJson, if_true, bind_eq_ok_iff, pure_eq, Except.ok.injEq] at hj hk
  obtain ⟨_, ⟨i, hi, rfl⟩, n, hn, s, hs, js, hjs, doc, hdocj, m, hm, rfl⟩ := hj
  obtain ⟨_, ⟨i', hi', rfl⟩, n', hn', s', hs', ks, hks, doc', hdock, m', hm', rfl⟩ := hk
  have hids := Value.tellsApart_text hid hid' i i' hi hi'
  have hnames := Value.tellsApart_text hname hname' n n' hn hn'
  have hscopes := Scope.tellsApart hscope hscope' s s' hs hs'
  have hitems := itemsSame_iff_of_mapM hjs hks
    fun r hr s hs => Reference.tellsApart (hreferences r hr) (hreferences' s hs)
  have hdocs := Documentation.tellsApart_option hdoc hdoc' doc doc' hdocj hdock
  have hmaps := hmetadata.tellsApart hmetadata' m m' hm hm'
  refine (Json.same_obj_iff_forall₂ (by rfl) (by simp [Assoc.keys])).trans ?_
  simp [alike_iff, code_eq_iff DefinitionKind.ofCode?_code,
    Position.same_toJson_iff, hids, hnames, hscopes, hitems, hdocs, hmaps]

theorem CodeUnit.tellsApart_names {u v : CodeUnit} (hu : AllElementary u.nameParts)
    (hv : AllElementary v.nameParts) : TellsApart (nameToJson true) SameName u v := by
  obtain ⟨hid, hname⟩ := forall_nameParts_iff.mp hu
  obtain ⟨hid', hname'⟩ := forall_nameParts_iff.mp hv
  intro j k hj hk
  simp only [nameToJson, if_true, bind_eq_ok_iff, pure_eq, Except.ok.injEq] at hj hk
  obtain ⟨_, ⟨i, hi, rfl⟩, n, hn, rfl⟩ := hj
  obtain ⟨_, ⟨i', hi', rfl⟩, n', hn', rfl⟩ := hk
  have hids := Value.tellsApart_text hid hid' i i' hi hi'
  have hnames := Value.tellsApart_text hname hname' n n' hn hn'
  refine (Json.same_obj_iff_forall₂ (by rfl) (by simp [Assoc.keys])).trans ?_
  simp [SameName, hids, hnames]

theorem CodeUnit.tellsApart {u v : CodeUnit} (hu : AllElementary u.parts)
    (hv : AllElementary v.parts) : TellsApart (toJson true) Alike u v := by
  obtain ⟨hown, hdefinitions, hdependencies, hdoc, hmetadata⟩ := forall_parts_iff.mp hu
  obtain ⟨hown', hdefinitions', hdependencies', hdoc', hmetadata'⟩ := forall_parts_iff.mp hv
  obtain ⟨hid, hname⟩ := forall_nameParts_iff.mp hown
  obtain ⟨hid', hname'⟩ := forall_nameParts_iff.mp hown'
  intro j k hj hk
  simp only [toJson, if_true, bind_eq_ok_iff, pure_eq, Except.ok.injEq] at hj hk
  obtain ⟨_, ⟨i, hi, rfl⟩, n, hn, ds, hds, us, hus, doc, hdocj, m, hm, rfl⟩ := hj
  obtain ⟨_, ⟨i', hi', rfl⟩, n', hn', ds', hds', us', hus', doc', hdock, m', hm', rfl⟩ := hk
  have hids := Value.tellsApart_text hid hid' i i' hi hi'
  have hnames := Value.tellsApart_text hname hname' n n' hn hn'
  have howned := itemsSame_iff_of_mapM hds hds'
    fun d hd e he => Definition.tellsApart (hdefinitions d hd) (hdefinitions' e he)
  have hnamed := itemsSame_iff_of_mapM hus hus'
    fun u hu v hv => CodeUnit.tellsApart_names (hdependencies u hu) (hdependencies' v hv)
  have hdocs := Documentation.tellsApart_option hdoc hdoc' doc doc' hdocj hdock
  have hmaps := hmetadata.tellsApart hmetadata' m m' hm hm'
  refine (Json.same_obj_iff_forall₂ (by rfl) (by simp [Assoc.keys])).trans ?_
  simp [alike_iff, code_eq_iff UnitType.ofCode?_code,
    hids, hnames, howned, hnamed, hdocs, hmaps]

end CodeOutline
