/-
CodeOutline/Proofs/Entity/Hashing.lean

How many entities a collection without repetitions keeps.

An entity is compared like the list of its parts, and its key is the key of that list
(`Entity.asValue`, `Entity.same_iff`, `Entity.key_eq`), so what is known of the keys of equal values
holds of entities.  A collection keeps one entity of each class of equal ones if and only if any two
equal ones among those that are put in are listed alike (`Entity.length_distinct_eq_ncard_iff`).
Entities whose maps have text keys always are (`Entity.Proper.key_same_of_textKeys`); other maps
need not be, so of two equal entities a collection can keep both.
-/
import CodeOutline.Proofs.Metadata.Hashing
import Mathlib.Data.Set.Card

namespace CodeOutline

/-! ### Entities as values -/

/-- A position as a value. -/
def Position.asValue (p : Position) : Value :=
  .list [.scalar (.int p.line), .scalar (.int p.column), .scalar (.int p.offset)]

/-- A position as a value, or nothing. -/
def Position.optionAsValue : Option Position → Value
  | none => .null
  | some p => p.asValue

/-- Metadata as a value. -/
def Metadata.asValue (m : Metadata) : Value := .map m.toEntries

mutual

/-- A scope as the list of its parts. -/
def Scope.asValue : Scope → Value
  | ⟨l, b, e, cs, m⟩ =>
    .list [.scalar (.word (.scopeLevel l)), b.asValue, e.asValue, .list (Scope.asValues cs),
      Metadata.asValue m]

/-- Scopes as values. -/
def Scope.asValues : List Scope → List Value
  | [] => []
  | s :: ss => s.asValue :: Scope.asValues ss

end

/-- A reference as the list of its parts. -/
def Reference.asValue (r : Reference) : Value :=
  .list [.scalar (.word (.referenceKind r.kind)), r.targetName, Position.optionAsValue r.position,
    r.metadata.asValue]

/-- A tag as the list of its parts. -/
def DocumentationTag.asValue (t : DocumentationTag) : Value :=
  .list [t.name, t.value, t.attributes.asValue]

/-- A piece of documentation as the list of its parts. -/
def Documentation.asValue (d : Documentation) : Value :=
  .list [.scalar (.word (.documentationFormat d.format)), d.description,
    Position.optionAsValue d.position, .list (d.tags.map DocumentationTag.asValue),
    d.metadata.asValue]

/-- An entity as the list of its parts that are compared; of a definition and a unit that is the
id only. -/
def Entity.asValue : Entity → Value
  | .position p => p.asValue
  | .scope s => s.asValue
  | .reference r => r.asValue
  | .tag t => t.asValue
  | .documentation d => d.asValue
  | .definition d => d.id
  | .unit u => u.id

/-! ### Equality and keys -/

theorem Scalar.same_word_iff {a b : Word} : (word a).same (word b) = true ↔ a = b := by
  simp [same, number?, alike]

theorem Scalar.same_int_iff {a b : Int} : (int a).same (int b) = true ↔ a = b := by
  have hscaled : ∀ n : Int, (Decimal.ofInt n).scaled 0 = n := by
    intro n
    simp only [Decimal.scaled, Decimal.ofInt, Int.sub_self, Int.toNat_zero, Nat.pow_zero,
      Nat.pow_eq, Nat.mul_one, decide_eq_true_eq]
    split <;> omega
  have hexponent : ∀ n : Int, (Decimal.ofInt n).exponent = 0 := fun _ => rfl
  simp [same, number?, Decimal.same, hscaled, hexponent]

theorem Position.same_asValue_iff {p q : Position} : p.asValue.same q.asValue = true ↔ p = q := by
  obtain ⟨line, column, offset, _, _⟩ := p
  obtain ⟨line', column', offset', _, _⟩ := q
  simp [asValue, Value.same, Value.sameItems, Scalar.same_int_iff]

theorem Position.same_optionAsValue_iff {p q : Option Position} :
    (optionAsValue p).same (optionAsValue q) = true ↔ p = q := by
  cases p <;> cases q <;>
    simp [optionAsValue, same_asValue_iff, Value.same, Scalar.same_refl] <;>
    simp [asValue, Value.same]

theorem Metadata.same_eq (m n : Metadata) : m.same n = m.asValue.same n.asValue := rfl

mutual

theorem Scope.same_iff (s t : Scope) : s.same t = true ↔ s.asValue.same t.asValue = true := by
  match s, t with
  | ⟨l, b, e, cs, m⟩, ⟨l', b', e', cs', m'⟩ =>
    simp [Scope.same, Scope.asValue, Value.same, Value.sameItems, Scalar.same_word_iff,
      Position.same_asValue_iff, Scope.sameAll_iff cs cs', Metadata.same_eq, and_assoc]

theorem Scope.sameAll_iff (ss ts : List Scope) :
    Scope.sameAll ss ts = true ↔
      Value.sameItems (Scope.asValues ss) (Scope.asValues ts) = true := by
  match ss, ts with
  | [], [] => simp [Scope.sameAll, Scope.asValues, Value.sameItems]
  | [], _ :: _ => simp [Scope.sameAll, Scope.asValues, Value.sameItems]
  | _ :: _, [] => simp [Scope.sameAll, Scope.asValues, Value.sameItems]
  | s :: ss, t :: ts =>
    simp [Scope.sameAll, Scope.asValues, Value.sameItems, Scope.same_iff s t,
      Scope.sameAll_iff ss ts]

end

theorem Reference.same_iff (r s : Reference) :
    r.same s = true ↔ r.asValue.same s.asValue = true := by
  simp [same, asValue, Value.same, Value.sameItems, Scalar.same_word_iff,
    Position.same_optionAsValue_iff, Metadata.same_eq, and_assoc]

theorem DocumentationTag.same_iff (t u : DocumentationTag) :
    t.same u = true ↔ t.asValue.same u.asValue = true := by
  simp [same, asValue, Value.same, Value.sameItems, Metadata.same_eq, and_assoc]

theorem Documentation.sameTags_iff (ts us : List DocumentationTag) :
    sameTags ts us = true ↔
      Value.sameItems (ts.map DocumentationTag.asValue)
        (us.map DocumentationTag.asValue) = true := by
  induction ts generalizing us with
  | nil => cases us <;> simp [sameTags, Value.sameItems]
  | cons t ts ih => cases us <;> simp [sameTags, Value.sameItems, DocumentationTag.same_iff, ih]

theorem Documentation.same_iff (d d' : Documentation) :
    d.same d' = true ↔ d.asValue.same d'.asValue = true := by
  simp [same, asValue, Value.same, Value.sameItems, Scalar.same_word_iff,
    Position.same_optionAsValue_iff, Documentation.sameTags_iff, Metadata.same_eq, and_assoc]

/-- Two entities are equal if they are of one type and their parts are equal. -/
theorem Entity.same_iff {a b : Entity} :
    a.same b = true ↔ a.type = b.type ∧ a.asValue.same b.asValue = true := by
  cases a <;> cases b <;>
    simp [same, type, asValue, Position.same_asValue_iff, Scope.same_iff, Reference.same_iff,
      DocumentationTag.same_iff, Documentation.same_iff, Definition.same, CodeUnit.same]

theorem Position.optionKey_eq (p : Option Position) : optionKey p = (optionAsValue p).key := by
  cases p <;> rfl

mutual

theorem Scope.key_eq (s : Scope) : s.key = s.asValue.key := by
  match s with
  | ⟨l, b, e, cs, m⟩ =>
    rw [Scope.key, Scope.asValue, Scope.keys_eq cs]
    rfl

theorem Scope.keys_eq (ss : List Scope) : Scope.keys ss = Value.itemKeys (Scope.asValues ss) := by
  match ss with
  | [] => rfl
  | s :: ss => rw [Scope.keys, Scope.asValues, Value.itemKeys, Scope.key_eq s, Scope.keys_eq ss]

end

theorem Documentation.key_eq (d : Documentation) : d.key = d.asValue.key := by
  have htags : d.tags.map DocumentationTag.key
      = Value.itemKeys (d.tags.map DocumentationTag.asValue) := by
    rw [Value.itemKeys_eq_map, List.map_map]
    rfl
  rw [key, htags, Position.optionKey_eq]
  rfl

/-- The key of an entity is the key of the list of its parts. -/
theorem Entity.key_eq (e : Entity) : e.key = e.asValue.key := by
  cases e with
  | scope s => exact s.key_eq
  | documentation d => exact d.key_eq
  | reference r =>
    rw [key, Reference.key, Position.optionKey_eq]
    rfl
  | _ => rfl

/-! ### Entities without repetitions -/

namespace Entity

variable {a b c : Entity} {es : List Entity}

/-- The maps and sets in the parts of an entity have no repetitions. -/
def Proper (e : Entity) : Prop := e.asValue.Proper

/-- The parts of an entity that may be values of any type are texts. -/
def HasTextFields (e : Entity) : Prop := ∀ v ∈ e.openParts, ∃ s : String, v = .text s

/-- Maps at one place in two entities have equal keys in their entries one by one, each in the order
of the text of its keys. -/
def ListedAlike (a b : Entity) : Prop := a.asValue.ListedAlike b.asValue

/-- The maps in an entity have text keys. -/
def TextKeys (e : Entity) : Prop := e.asValue.TextKeys

theorem Proper.same_refl (ha : a.Proper) : a.same a = true := by
  rw [same_iff]
  exact ⟨rfl, Value.Proper.same_refl ha⟩

theorem Proper.same_symm (ha : a.Proper) (hb : b.Proper) (h : a.same b = true) :
    b.same a = true := by
  rw [same_iff] at h ⊢
  exact ⟨h.1.symm, Value.Proper.same_symm ha hb h.2⟩

theorem Proper.same_trans (ha : a.Proper) (hb : b.Proper) (hc : c.Proper) (h : a.same b = true)
    (h' : b.same c = true) : a.same c = true := by
  rw [same_iff] at h h' ⊢
  exact ⟨h.1.trans h'.1, Value.Proper.same_trans ha hb hc h.2 h'.2⟩

/-- The keys of two equal entities agree if and only if the maps in them are listed alike. -/
theorem Proper.key_same_iff (ha : a.Proper) (hb : b.Proper) (h : a.same b = true) :
    a.key.same b.key = true ↔ a.ListedAlike b := by
  rw [key_eq, key_eq]
  rw [same_iff] at h
  exact Value.Proper.key_same_iff ha hb h.2

theorem Proper.listedAlike_of_textsTell (ha : a.Proper) (hb : b.Proper) (h : a.same b = true)
    (htell : a.asValue.TextsTell b.asValue) : a.ListedAlike b := by
  rw [same_iff] at h
  exact Value.Proper.listedAlike_of_textsTell ha hb h.2 htell

/-- Equal entities whose maps have text keys are found under one key. -/
theorem Proper.key_same_of_textKeys (ha : a.Proper) (hb : b.Proper) (hka : a.TextKeys)
    (hkb : b.TextKeys) (h : a.same b = true) : a.key.same b.key = true :=
  (ha.key_same_iff hb h).mpr
    (ha.listedAlike_of_textsTell hb h (Value.textsTell_of_textKeys hka hkb))

theorem Proper.collides_trans (ha : a.Proper) (hb : b.Proper) (hc : c.Proper)
    (h : a.collides b = true) (h' : b.collides c = true) : a.collides c = true := by
  simp only [collides, Bool.and_eq_true, key_eq] at h h' ⊢
  exact ⟨Value.Proper.key_same_trans ha hb hc h.1 h'.1, ha.same_trans hb hc h.2 h'.2⟩

theorem Proper.collides_symm (ha : a.Proper) (hb : b.Proper) (h : a.collides b = true) :
    b.collides a = true := by
  simp only [collides, Bool.and_eq_true, key_eq] at h ⊢
  exact ⟨Value.Proper.key_same_symm ha hb h.1, ha.same_symm hb h.2⟩

theorem Proper.collides_self (ha : a.Proper) : a.collides a = true := by
  have hkey : a.key.same a.key = true := by
    rw [key_eq, Key.same_eq]
    exact (Value.Proper.proper_key ha).same_refl
  simp [collides, hkey, ha.same_refl]

/-! ### What a collection keeps -/

/-- The entities in a list that are equal to one of it. -/
def equals (es : List Entity) (a : Entity) : Set Entity := {b | b ∈ es ∧ a.same b = true}

/-- The classes of equal entities in a list. -/
def classes (es : List Entity) : Set (Set Entity) := {c | ∃ a ∈ es, c = equals es a}

theorem equals_eq_iff (hes : ∀ e ∈ es, e.Proper) (ha : a ∈ es) (hb : b ∈ es) :
    equals es a = equals es b ↔ a.same b = true := by
  constructor
  · intro h
    have hmem : b ∈ equals es b := ⟨hb, (hes b hb).same_refl⟩
    rw [← h] at hmem
    exact hmem.2
  · intro h
    have h' := (hes a ha).same_symm (hes b hb) h
    ext c
    refine and_congr_right fun hc => ?_
    exact ⟨(hes b hb).same_trans (hes a ha) (hes c hc) h',
      (hes a ha).same_trans (hes b hb) (hes c hc) h⟩

/-- A collection keeps entities that are put in, no two of which it takes for one, and takes every
entity for one of these. -/
theorem distinct_spec (hes : ∀ e ∈ es, e.Proper) :
    (∀ k ∈ distinct es, k ∈ es) ∧
      (distinct es).Pairwise (fun a b => a.collides b = false) ∧
      ∀ e ∈ es, ∃ k ∈ distinct es, k.collides e = true :=
  ⟨fun _ hk => (mem_or_mem_of_mem_keepNew hk).resolve_left List.not_mem_nil,
    pairwise_keepNew es .nil,
    fun _ he => exists_mem_keepNew (fun e he => (hes e he).collides_self) (.inr he)⟩

/-- A collection keeps as many entities as there are classes of equal ones if and only if it keeps
no two equal ones. -/
theorem length_distinct_iff (hes : ∀ e ∈ es, e.Proper) :
    (distinct es).length = (classes es).ncard ↔ ((distinct es).map (equals es)).Nodup := by
  classical
  obtain ⟨hmem, -, hcover⟩ := distinct_spec hes
  have hclasses : classes es = ((distinct es).map (equals es)).toFinset := by
    ext c
    simp only [classes, Set.mem_ofPred_eq, List.coe_toFinset, List.mem_map]
    constructor
    · rintro ⟨a, ha, rfl⟩
      obtain ⟨k, hk, hka⟩ := hcover a ha
      have hsame : k.same a = true := (Bool.and_eq_true _ _ ▸ hka).2
      exact ⟨k, hk, (equals_eq_iff hes (hmem k hk) ha).mpr hsame⟩
    · rintro ⟨k, hk, rfl⟩
      exact ⟨k, hmem k hk, rfl⟩
  rw [hclasses, Set.ncard_coe_finset, ← List.length_map (equals es), eq_comm]
  exact Multiset.toFinset_card_eq_card_iff_nodup (m := .ofList ((distinct es).map (equals es)))

/-- A collection keeps one entity of each class of equal ones if and only if equal entities among
those that are put in are listed alike. -/
theorem length_distinct_eq_ncard_iff (hes : ∀ e ∈ es, e.Proper) :
    (distinct es).length = (classes es).ncard ↔
      ∀ a ∈ es, ∀ b ∈ es, a.same b = true → a.ListedAlike b := by
  obtain ⟨hmem, hpairwise, hcover⟩ := distinct_spec hes
  rw [length_distinct_iff hes]
  constructor
  · intro hnodup a ha b hb h
    -- both are taken for one that is kept, and there is but one such
    obtain ⟨k, hk, hka⟩ := hcover a ha
    obtain ⟨l, hl, hlb⟩ := hcover b hb
    have pa := hes a ha
    have pb := hes b hb
    have pk := hes k (hmem k hk)
    have pl := hes l (hmem l hl)
    have hak := pk.collides_symm pa hka
    have hkl : k.same l = true := by
      have hka := (Bool.and_eq_true _ _ ▸ hka).2
      have hlb := (Bool.and_eq_true _ _ ▸ hlb).2
      exact pk.same_trans pa pl hka (pa.same_trans pb pl h (pl.same_symm pb hlb))
    obtain rfl := List.inj_on_of_nodup_map hnodup hk hl
      ((equals_eq_iff hes (hmem k hk) (hmem l hl)).mpr hkl)
    have hab := pa.collides_trans pk pb hak hlb
    exact (pa.key_same_iff pb h).mp (Bool.and_eq_true _ _ ▸ hab).1
  · intro hlisted
    refine List.pairwise_map.mpr (hpairwise.imp_of_mem fun {a b} ha hb hab heq => ?_)
    have hsame := (equals_eq_iff hes (hmem a ha) (hmem b hb)).mp heq
    have hkey := ((hes a (hmem a ha)).key_same_iff (hes b (hmem b hb)) hsame).mpr
      (hlisted a (hmem a ha) b (hmem b hb) hsame)
    simp [collides, hkey, hsame] at hab

theorem HasTextFields.checkKey_eq {e : Entity} (h : e.HasTextFields) : e.checkKey = .ok () := by
  have hnone : e.openParts.find? (fun v => !v.isScalar) = none := by
    rw [List.find?_eq_none]
    intro v hv
    obtain ⟨s, rfl⟩ := h v hv
    simp [Value.isScalar]
  rw [checkKey, hnone]

/-- A collection can hold entities whose fields are texts. -/
theorem countDistinct_eq (hes : ∀ e ∈ es, e.HasTextFields) :
    countDistinct es = .ok (distinct es).length := by
  have hcheck : es.forM checkKey = .ok () := by
    induction es with
    | nil => rfl
    | cons e es ih =>
      obtain ⟨he, hrest⟩ := List.forall_mem_cons.mp hes
      rw [List.forM_eq_forM, List.forM_cons, he.checkKey_eq]
      exact ih hrest
  rw [countDistinct, hcheck]
  rfl

/-- A tag with a map among its attributes. -/
def tagWith (es : List (Scalar × Value)) : Entity := .tag ⟨"t", "", [("m", .map es)]⟩

theorem hasTextFields_tagWith (es : List (Scalar × Value)) : (tagWith es).HasTextFields := by
  simp [tagWith, HasTextFields, openParts]

theorem proper_tagWith {es : List (Scalar × Value)} (hes : (Value.map es).Proper) :
    (tagWith es).Proper := by
  refine .list (List.forall_mem_cons.mpr ⟨.scalar _, List.forall_mem_cons.mpr ⟨.scalar _, ?_⟩⟩)
  refine List.forall_mem_singleton.mpr (.map (List.pairwise_singleton _ _) ?_)
  exact List.forall_mem_singleton.mpr hes

theorem key_same_tagWith (es fs : List (Scalar × Value)) :
    (tagWith es).key.same (tagWith fs).key = (Value.map es).key.same (Value.map fs).key := by
  have hkey : ∀ es : List (Scalar × Value), (tagWith es).key =
      .row [.scalar (.text "t"), .scalar (.text ""),
        .row [.row [.scalar (.text "m"), (Value.map es).key]]] := by
    intro es
    rw [tagWith, key, DocumentationTag.key, Metadata.key, Value.key_map, Metadata.toEntries,
      List.map_singleton, Value.listed_singleton, List.map_singleton]
    rfl
  simp [hkey, Key.same, Key.sameItems, Scalar.same_refl]

theorem proper_pair {k l : Scalar} (s t : String) (h : k.same l = false) :
    (Value.map [(k, s), (l, t)]).Proper :=
  .map (List.pairwise_pair.mpr h) (by simpa using ⟨.scalar _, .scalar _⟩)

/-- One map in two orders. -/
def reordered : List Entity :=
  [tagWith [(.int 2, "x"), (.text "A", "y")], tagWith [(.text "A", "y"), (.int 2, "x")]]

/-- One map with `1` and with `true` as a key. -/
def oneAndTrue : List Entity :=
  [tagWith [(.int 1, "x"), (.text "A", "y")], tagWith [(.bool true, "x"), (.text "A", "y")]]

end Entity

end CodeOutline
