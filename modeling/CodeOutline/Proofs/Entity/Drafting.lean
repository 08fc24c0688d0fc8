/-
CodeOutline/Proofs/Entity/Drafting.lean

Drafts that are filled by setters, next to constructors with named arguments.

However often the setters of a draft are called, and in whatever order, what counts of the calls
can be said without a draft: of a single place the last value, of a list all that was added, and of
a map the one that was set last with the entries that were added since.  These are the arguments of
a constructor (`EntityType.argumentsAfter`), and the draft that they describe is the draft that the
calls lead to.  One call more keeps that so (`Draft.after_concat`), and the rest is induction on the
calls.

A call fails by itself or not at all: by its number of arguments, or because an argument that is
copied cannot be read (`exists_run?_iff`).  What else is wrong with the arguments is found when the
entity is built.  Building leaves the draft alone, so each time an entity is built in between, it or
its error is what the constructor makes of the arguments so far, and nothing that follows changes
what has been built (`built_as_constructed`).
-/
import CodeOutline.Entity.Setter
import CodeOutline.Proofs.Assoc
import CodeOutline.Proofs.Entity.Rebuilding
import Mathlib.Data.List.DropRight
import Mathlib.Tactic.CasesM

namespace CodeOutline

open Outcome

/-! ### Arguments that are copied into lists and maps -/

namespace Argument

/-- The elements of an argument, none if it has no elements. -/
def items (a : Argument) : List Argument :=
  match a.elements with
  | .ok es => es
  | .error _ => []

/-- The key and the value that an argument of two elements stands for. -/
def pair? (a : Argument) : Option (Argument × Argument) :=
  match a.elements with
  | .ok [k, v] => some (k, v)
  | _ => none

/-- The entries of a map, or those that the elements of another argument stand for. -/
def asEntries : Argument → List (Argument × Argument)
  | .map entries => entries
  | a => a.items.filterMap pair?

/-- Whether two arguments are one key. -/
def sameKey (a b : Argument) : Bool :=
  match a.scalar?, b.scalar? with
  | some s, some t => s.same t
  | _, _ => false

/-- The map that is left when entries are written one after the other. -/
def mapOf (entries : List (Argument × Argument)) : Argument := .map (Assoc.ofList sameKey entries)

theorem items_of_elements {a : Argument} {es : List Argument} (h : a.elements = .ok es) :
    a.items = es := by
  rw [items, h]

theorem scalar?_of_key {a : Argument} {s : Scalar} (h : a.key = .ok s) : a.scalar? = some s := by
  cases a with
  | scalar | draft =>
    cases h
    rfl
  | entity e number =>
    obtain ⟨-, -, h⟩ := bind_eq_ok_iff.mp h
    cases h
    rfl
  | list | set | map => cases h

/-! #### Entries written one after the other -/

theorem toEntries_eq_filterMap (es : List (Argument × Argument)) :
    toEntries es = es.filterMap fun e => e.1.scalar?.map fun s => (s, e.2.toValue) := by
  induction es with
  | nil => rfl
  | cons e es ih =>
    rw [toEntries, List.filterMap_cons, ih]
    rcases e.1.scalar? with - | s <;> rfl

theorem toEntries_append (es es' : List (Argument × Argument)) :
    toEntries (es ++ es') = toEntries es ++ toEntries es' := by
  simp only [toEntries_eq_filterMap, List.filterMap_append]

theorem toEntries_cons_of_key {k : Argument} {s : Scalar} (h : k.key = .ok s) (v : Argument)
    (es : List (Argument × Argument)) :
    toEntries ((k, v) :: es) = (s, v.toValue) :: toEntries es := by
  simp only [toEntries, scalar?_of_key h]

theorem toEntries_insert (k v : Argument) (es : List (Argument × Argument)) :
    toEntries (Assoc.insert sameKey k v es) =
      Assoc.insertAll Scalar.same (toEntries [(k, v)]) (toEntries es) := by
  induction es with
  | nil =>
    rcases hk : k.scalar? with - | s <;> simp [toEntries, Assoc.insertAll, Assoc.insert, hk]
  | cons e es ih =>
    -- an argument that is no scalar is never a key, neither of the new entry nor of the first one
    rcases hk' : e.1.scalar? with - | s' <;> rcases hk : k.scalar? with - | s <;>
      simp only [toEntries, hk] at ih <;>
      simp [toEntries, Assoc.insertAll, Assoc.insert, sameKey, hk', hk, ih]
    split <;> simp [toEntries, hk', ih, Assoc.insertAll]

theorem toEntries_insertAll (new es : List (Argument × Argument)) :
    toEntries (Assoc.insertAll sameKey new es) =
      Assoc.insertAll Scalar.same (toEntries new) (toEntries es) := by
  induction new generalizing es with
  | nil => rfl
  | cons e new ih =>
    calc toEntries (Assoc.insertAll sameKey (e :: new) es)
        = toEntries (Assoc.insertAll sameKey new (Assoc.insert sameKey e.1 e.2 es)) := rfl
      _ = Assoc.insertAll Scalar.same (toEntries [e] ++ toEntries new) (toEntries es) := by
          rw [ih, toEntries_insert, Assoc.insertAll_append]
      _ = Assoc.insertAll Scalar.same (toEntries (e :: new)) (toEntries es) := by
          rw [← toEntries_append, List.singleton_append]

/-- It makes no difference whether entries are written as arguments or as values. -/
@[simp] theorem expectMapping_mapOf (field : String) (es : List (Argument × Argument)) :
    expectMapping field (mapOf es) = .ok (Assoc.ofList Scalar.same (toEntries es)) :=
  congrArg Except.ok <|
    (congrArg (Assoc.ofList Scalar.same) (toEntries_insertAll es [])).trans (Assoc.ofList_ofList _)

theorem ofList_toEntries_concat {k : Argument} {s : Scalar} (h : k.key = .ok s) (v : Argument)
    (es : List (Argument × Argument)) :
    Assoc.ofList Scalar.same (toEntries (es ++ [(k, v)])) =
      Assoc.insert Scalar.same s v.toValue (Assoc.ofList Scalar.same (toEntries es)) := by
  rw [toEntries_append, toEntries_cons_of_key h]
  exact Assoc.ofList_concat _ _

/-! #### What a call has copied that went well -/

theorem pair?_of_pair {i : Nat} {a : Argument} {e : Scalar × Value} (h : a.pair i = .ok e) :
    ∃ k v, a.pair? = some (k, v) ∧ k.key = .ok e.1 ∧ v.toValue = e.2 := by
  unfold pair at h
  split at h
  · cases h
  · next k v hab =>
    obtain ⟨s, hs, rfl⟩ := map_eq_ok_iff.mp h
    exact ⟨k, v, by rw [pair?, hab], hs, rfl⟩
  · cases h

theorem toEntries_of_pairs {as : List Argument} {i : Nat} {es : List (Scalar × Value)}
    (h : pairs i as = .ok es) : toEntries (as.filterMap pair?) = es := by
  induction as generalizing i es with
  | nil =>
    cases h
    rfl
  | cons a as ih =>
    obtain ⟨e, he, h⟩ := bind_eq_ok_iff.mp h
    obtain ⟨rest, hrest, h⟩ := bind_eq_ok_iff.mp h
    cases h
    obtain ⟨k, v, hpair, hkey, hvalue⟩ := pair?_of_pair he
    rw [List.filterMap_cons_some hpair, toEntries_cons_of_key hkey, ih hrest, hvalue]

theorem eq_of_entries {a : Argument} {es : List (Scalar × Value)} (h : a.entries = .ok es) :
    es = Assoc.ofList Scalar.same (toEntries a.asEntries) := by
  unfold entries at h
  split at h
  · cases h
    rfl
  · next hmap =>
    obtain ⟨items, hitems, h⟩ := bind_eq_ok_iff.mp h
    obtain ⟨es, hes, h⟩ := bind_eq_ok_iff.mp h
    cases h
    have hentries : a.asEntries = a.items.filterMap pair? := by
      unfold asEntries
      split
      · exact absurd rfl (hmap _)
      · rfl
    rw [hentries, items_of_elements hitems, toEntries_of_pairs hes]

section Results

variable {α δ : Type} {a : Argument} {d : δ}

theorem eq_of_entries_map {f : List (Scalar × Value) → δ} (h : a.entries.map f = .ok d) :
    d = f (Assoc.ofList Scalar.same (toEntries a.asEntries)) := by
  obtain ⟨es, hes, rfl⟩ := map_eq_ok_iff.mp h
  rw [eq_of_entries hes]

theorem eq_of_slots_map {pick : Argument → Option α} {expected field : String}
    {f : List (Slot α) → δ} (h : (a.slots pick expected field).map f = .ok d) :
    d = f (a.items.map (expect pick expected (field ++ " element"))) := by
  obtain ⟨ss, hss, rfl⟩ := map_eq_ok_iff.mp h
  obtain ⟨es, hes, rfl⟩ := map_eq_ok_iff.mp hss
  rw [items_of_elements hes]

end Results

end Argument

/-! ### What calls amount to -/

/-- A call of a setter. -/
structure SetterCall where
  setter : String
  args : List Argument

namespace SetterCall

open Argument

/-- The argument of a call, if it is one of a given setter. -/
@[simp] def value? (name : String) (c : SetterCall) : Option Argument :=
  if c.setter = name then c.args.head? else none

/-- The key and the value of a call, if it is one of a given setter. -/
@[simp] def keyValue? (name : String) (c : SetterCall) : Option (Argument × Argument) :=
  if c.setter = name then
    match c.args with
    | [k, v] => some (k, v)
    | _ => none
  else none

/-- What the last call of a setter has set. -/
def lastValue? (name : String) (cs : List SetterCall) : Option Argument :=
  (cs.filterMap (value? name)).getLast?

/-- All that was added, one by one by one setter and several at once by another. -/
def added (one many : String) (cs : List SetterCall) : List Argument :=
  cs.flatMap fun c => (c.value? one).toList ++ ((c.value? many).map items).getD []

/-- The entries of the map that was set last, and behind them those that were added since. -/
def entriesSince (whole : Option String) (one : String) (cs : List SetterCall) :
    List (Argument × Argument) :=
  ((whole.bind fun name => lastValue? name cs).map asEntries).getD [] ++
    (cs.rtakeWhile fun c => some c.setter != whole).filterMap (keyValue? one)

@[simp] theorem lastValue?_concat (name : String) (cs : List SetterCall) (c : SetterCall) :
    lastValue? name (cs ++ [c]) = (c.value? name).or (lastValue? name cs) := by
  rcases h : c.value? name with - | a <;> simp only [lastValue?, List.filterMap_append,
    List.filterMap_cons, List.filterMap_nil, h, List.append_nil, Option.none_or,
    List.getLast?_concat, Option.some_or]

@[simp] theorem added_concat (one many : String) (cs : List SetterCall) (c : SetterCall) :
    added one many (cs ++ [c]) =
      added one many cs ++ ((c.value? one).toList ++ ((c.value? many).map items).getD []) := by
  simp only [added, List.flatMap_append, List.flatMap_singleton]

/-- A map that is set leaves nothing of what was there before. -/
theorem entriesSince_concat_of_eq {name : String} {c : SetterCall} (h : c.setter = name)
    (one : String) (cs : List SetterCall) :
    entriesSince (some name) one (cs ++ [c]) =
      ((lastValue? name (cs ++ [c])).map asEntries).getD [] := by
  rw [entriesSince, List.rtakeWhile_concat_neg _ _ _ (by simp [h])]
  exact List.append_nil _

theorem entriesSince_concat_of_ne {whole : Option String} {c : SetterCall}
    (h : some c.setter ≠ whole) (one : String) (cs : List SetterCall) :
    entriesSince whole one (cs ++ [c]) = entriesSince whole one cs ++ (c.keyValue? one).toList := by
  have hlast : (whole.bind fun name => lastValue? name (cs ++ [c])) =
      whole.bind fun name => lastValue? name cs := by
    refine Option.bind_congr fun name hname => ?_
    have hne : c.setter ≠ name := fun he => h (by rw [he, hname])
    rw [lastValue?_concat, value?, if_neg hne, Option.none_or]
  have hadded : (cs ++ [c]).rtakeWhile (fun c => some c.setter != whole) =
      cs.rtakeWhile (fun c => some c.setter != whole) ++ [c] :=
    List.rtakeWhile_concat_pos _ _ _ (by simpa using h)
  rw [entriesSince, hlast, hadded, List.filterMap_append, ← List.append_assoc, ← entriesSince,
    List.filterMap_cons]
  rcases c.keyValue? one with - | e <;> rfl

theorem ofList_entriesSince_concat {k : Argument} {s : Scalar} {whole : Option String}
    {one : String} (hkey : k.key = .ok s) (hone : some one ≠ whole) (v : Argument)
    (cs : List SetterCall) :
    Assoc.ofList Scalar.same (toEntries (entriesSince whole one (cs ++ [⟨one, [k, v]⟩]))) =
      Assoc.insert Scalar.same s v.toValue
        (Assoc.ofList Scalar.same (toEntries (entriesSince whole one cs))) := by
  rw [entriesSince_concat_of_ne hone, keyValue?, if_pos rfl]
  exact ofList_toEntries_concat hkey v _

end SetterCall

open SetterCall

/-- How an argument comes from calls of setters: it is the last value of the setter of its name, or
a list that is added to, or a map that is set and added to. -/
inductive ArgumentOrigin where
  | last (default : Argument)
  | added (one many : String)
  | entries (whole : Option String) (one : String)

/-- The argument with a name after some calls. -/
def ArgumentOrigin.argument (name : String) (cs : List SetterCall) : ArgumentOrigin → Argument
  | .last default => (lastValue? name cs).getD default
  | .added one many => .list (SetterCall.added one many cs)
  | .entries whole one => Argument.mapOf (entriesSince whole one cs)

/-- Whether a call contributes to the argument with a name: it has as many arguments as its setter
takes, and what is copied of them can be read. -/
def ArgumentOrigin.Takes (name : String) (c : SetterCall) : ArgumentOrigin → Prop
  | .last _ => ∃ a, c = ⟨name, [a]⟩
  | .added one many => (∃ a, c = ⟨one, [a]⟩) ∨ ∃ a es, c = ⟨many, [a]⟩ ∧ a.elements = .ok es
  | .entries whole one =>
    (∃ setter a es, whole = some setter ∧ c = ⟨setter, [a]⟩ ∧ a.entries = .ok es) ∨
      ∃ k v s, c = ⟨one, [k, v]⟩ ∧ k.key = .ok s

namespace EntityType

/-- The arguments of a type, and how they come from calls of its setters. -/
def origins : EntityType → List (String × ArgumentOrigin)
  | .position =>
    [("line", .last .null), ("column", .last .null), ("offset", .last (.scalar (.int 0)))]
  | .scope =>
    [("level", .last .null), ("start", .last .null), ("end", .last .null),
      ("children", .added "add_child" "add_children"),
      ("metadata", .entries (some "metadata") "add_metadata")]
  | .reference =>
    [("kind", .last .null), ("target_name", .last .null), ("position", .last .null),
      ("metadata", .entries (some "metadata") "add_metadata")]
  | .tag =>
    [("name", .last .null), ("value", .last (.scalar (.text ""))),
      ("attributes", .entries none "add_attribute")]
  | .documentation =>
    [("format", .last .null), ("description", .last (.scalar (.text ""))),
      ("position", .last .null), ("tags", .added "add_tag" "add_tags"),
      ("metadata", .entries (some "metadata") "add_metadata")]
  | .definition =>
    [("name", .last .null), ("kind", .last .null), ("scope", .last .null),
      ("position", .last .null), ("references", .added "add_reference" "add_references"),
      ("documentation", .last .null), ("metadata", .entries (some "metadata") "add_metadata"),
      ("id", .last .null)]
  | .unit =>
    [("name", .last .null), ("type", .last .null),
      ("definitions", .added "add_definition" "add_definitions"),
      ("dependencies", .added "add_dependency" "add_dependencies"),
      ("documentation", .last .null), ("metadata", .entries (some "metadata") "add_metadata"),
      ("id", .last .null)]

/-- The arguments that calls of setters amount to. -/
def argumentsAfter (t : EntityType) (cs : List SetterCall) : List (String × Argument) :=
  t.origins.map fun (name, origin) => (name, origin.argument name cs)

/-- Whether a call contributes to an argument of a type. -/
def Takes (t : EntityType) (c : SetterCall) : Prop := ∃ o ∈ t.origins, o.2.Takes o.1 c

theorem checkNames_argumentsAfter (t : EntityType) (cs : List SetterCall) :
    t.checkNames ((t.argumentsAfter cs).map Prod.fst) = .ok () := by
  cases t <;> rfl

end EntityType

/-! ### Drafts after calls -/

namespace Entity

namespace Draft

open Argument

/-- The draft that calls of setters amount to. -/
def after (t : EntityType) (cs : List SetterCall) : Entity.Draft :=
  ofArguments t (t.argumentsAfter cs)

theorem ofArguments_argumentsAfter (fresh : String) (t : EntityType) (cs : List SetterCall) :
    Entity.ofArguments fresh t (t.argumentsAfter cs) = (after t cs).build fresh := by
  rw [Entity.ofArguments, t.checkNames_argumentsAfter cs]
  rfl

section Places

variable (cs : List SetterCall)

theorem after_position : after .position cs = .position {
    line := expectInteger "line" ((lastValue? "line" cs).getD .null)
    column := expectInteger "column" ((lastValue? "column" cs).getD .null)
    offset := expectInteger "offset" ((lastValue? "offset" cs).getD (.scalar (.int 0))) } := rfl

theorem after_scope : after .scope cs = .scope {
    level := expect scopeLevel? "ScopeLevel" "level" ((lastValue? "level" cs).getD .null)
    start := expect position? "Position" "start" ((lastValue? "start" cs).getD .null)
    stop := expect position? "Position" "end" ((lastValue? "end" cs).getD .null)
    children := .ok ((added "add_child" "add_children" cs).map
      (expect scope? "Scope" "children element"))
    metadata := expectMapping "metadata"
      (mapOf (entriesSince (some "metadata") "add_metadata" cs)) } := rfl

theorem after_reference : after .reference cs = .reference {
    kind := expect referenceKind? "ReferenceKind" "kind" ((lastValue? "kind" cs).getD .null)
    targetName := ((lastValue? "target_name" cs).getD .null).toValue
    position := expectOption position? "Position" "position"
      ((lastValue? "position" cs).getD .null)
    metadata := expectMapping "metadata"
      (mapOf (entriesSince (some "metadata") "add_metadata" cs)) } := rfl

theorem after_tag : after .tag cs = .tag {
    name := ((lastValue? "name" cs).getD .null).toValue
    value := ((lastValue? "value" cs).getD (.scalar (.text ""))).toValue
    attributes := expectMapping "attributes"
      (mapOf (entriesSince none "add_attribute" cs)) } := rfl

theorem after_documentation : after .documentation cs = .documentation {
    format := expect documentationFormat? "DocumentationFormat" "format"
      ((lastValue? "format" cs).getD .null)
    description := ((lastValue? "description" cs).getD (.scalar (.text ""))).toValue
    position := expectOption position? "Position" "position"
      ((lastValue? "position" cs).getD .null)
    tags := .ok ((added "add_tag" "add_tags" cs).map
      (expect tag? "DocumentationTag" "tags element"))
    metadata := expectMapping "metadata"
      (mapOf (entriesSince (some "metadata") "add_metadata" cs)) } := rfl

theorem after_definition : after .definition cs = .definition {
    name := ((lastValue? "name" cs).getD .null).toValue
    kind := expect definitionKind? "DefinitionKind" "kind" ((lastValue? "kind" cs).getD .null)
    scope := expect scope? "Scope" "scope" ((lastValue? "scope" cs).getD .null)
    position := expect position? "Position" "position" ((lastValue? "position" cs).getD .null)
    references := .ok ((added "add_reference" "add_references" cs).map
      (expect reference? "Reference" "references element"))
    documentation := expectOption documentation? "Documentation" "documentation"
      ((lastValue? "documentation" cs).getD .null)
    metadata := expectMapping "metadata"
      (mapOf (entriesSince (some "metadata") "add_metadata" cs))
    id := ((lastValue? "id" cs).getD .null).toValue } := rfl

theorem after_unit : after .unit cs = .unit {
    name := ((lastValue? "name" cs).getD .null).toValue
    type := expect unitType? "UnitType" "type" ((lastValue? "type" cs).getD .null)
    definitions := .ok ((added "add_definition" "add_definitions" cs).map
      (expect definition? "Definition" "definitions element"))
    dependencies := .ok ((added "add_dependency" "add_dependencies" cs).map
      (expect unit? "CodeUnit" "dependencies element"))
    documentation := expectOption documentation? "Documentation" "documentation"
      ((lastValue? "documentation" cs).getD .null)
    metadata := expectMapping "metadata"
      (mapOf (entriesSince (some "metadata") "add_metadata" cs))
    id := ((lastValue? "id" cs).getD .null).toValue } := rfl

end Places

theorem type_after (t : EntityType) (cs : List SetterCall) : (after t cs).type = t := by
  cases t <;> rfl

theorem after_nil (t : EntityType) : after t [] = empty t := by
  cases t <;> rfl

/-- A call of a setter that goes well leads from the draft that the calls before it amount to, to
the one that they amount to together with it. -/
theorem after_concat {t : EntityType} {cs : List SetterCall} {c : SetterCall} {d : Entity.Draft}
    (h : set? c.setter c.args (after t cs) = some (.ok d)) : after t (cs ++ [c]) = d := by
  obtain ⟨setter, args⟩ := c
  -- one case for each setter of each type, and for each type one in which there is no such setter
  cases t
  all_goals
    simp only [after_position, after_scope, after_reference, after_tag, after_documentation,
      after_definition, after_unit, expectMapping_mapOf] at h ⊢
    unfold set? at h
    split at h
  -- setters of another type do not apply, and without a setter there is no draft
  all_goals first
    | contradiction
    | simp only [Option.map_eq_some_iff, reduceCtorEq, and_false, exists_false] at h
    | injections
  all_goals subst_vars
  -- lists, maps and keys have been read from the arguments first
  all_goals first
    | obtain rfl := eq_of_slots_map ‹_›
    | obtain rfl := eq_of_entries_map ‹_›
    | obtain ⟨s, hkey, rfl⟩ := map_eq_ok_iff.mp ‹_›
      rw [ofList_entriesSince_concat hkey (by decide)]
    | skip
  all_goals simp [entriesSince_concat_of_ne, entriesSince_concat_of_eq, Except.map,
    Position.Draft.apply, Scope.Draft.apply, Reference.Draft.apply, DocumentationTag.Draft.apply,
    Documentation.Draft.apply, Definition.Draft.apply, CodeUnit.Draft.apply]

theorem takes_of_set? {d d' : Entity.Draft} {c : SetterCall}
    (h : set? c.setter c.args d = some (.ok d')) : d.type.Takes c := by
  obtain ⟨setter, args⟩ := c
  unfold set? at h
  split at h
  all_goals
    subst_vars
    simp only [Option.some.injEq, slots, map_eq_ok_iff, Option.map_eq_some_iff, reduceCtorEq,
      and_false, exists_false] at h
  all_goals simp [EntityType.Takes, type, EntityType.origins, ArgumentOrigin.Takes]
  all_goals first
    | obtain ⟨_, ⟨es, hes, -⟩, -⟩ := h
      exact ⟨es, hes⟩
    | obtain ⟨es, hes, -⟩ := h
      exact ⟨es, hes⟩

theorem exists_set?_of_takes {d : Entity.Draft} {c : SetterCall} (h : d.type.Takes c) :
    ∃ d', set? c.setter c.args d = some (.ok d') := by
  obtain ⟨⟨name, origin⟩, horigin, htakes⟩ := h
  -- the origins of a type are known one by one; all that can fail is reading what is copied
  cases origin with
  | last default =>
    obtain ⟨a, rfl⟩ := htakes
    cases d <;> simp [type, EntityType.origins] at horigin
    all_goals casesm* _ ∨ _, _ ∧ _
    all_goals
      subst_vars
      exact ⟨_, rfl⟩
  | added one many =>
    cases d <;> simp [type, EntityType.origins] at horigin
    all_goals casesm* _ ∨ _, _ ∧ _
    all_goals
      subst_vars
      obtain ⟨a, rfl⟩ | ⟨a, es, rfl, hread⟩ := htakes
      · exact ⟨_, rfl⟩
      · exact ⟨_, by simp only [set?, slots, hread]; rfl⟩
  | entries whole one =>
    cases d <;> simp [type, EntityType.origins] at horigin
    all_goals
      casesm* _ ∧ _
      subst_vars
      obtain ⟨_, a, es, ⟨⟩, rfl, hread⟩ | ⟨k, v, s, rfl, hread⟩ := htakes
      all_goals exact ⟨_, by simp only [set?, hread]; rfl⟩

end Draft

/-! ### Calls with entities built in between -/

/-- What is done with a draft: a setter is called, or its entity is built, with an id that is
offered. -/
inductive DraftStep where
  | set (c : SetterCall)
  | build (fresh : String)

/-- The call of a setter that a step is. -/
def DraftStep.call? : DraftStep → Option SetterCall
  | .set c => some c
  | .build _ => none

/-- The calls of setters among some steps. -/
def calls (steps : List DraftStep) : List SetterCall := steps.filterMap DraftStep.call?

/-- How often an entity is built in some steps. -/
def builds (steps : List DraftStep) : Nat := steps.countP fun step => step.call?.isNone

/-- A draft, and the entities or errors that it has been built into so far. -/
structure Drafting where
  draft : Draft
  built : List (Except ArgumentError Entity) := []

namespace Drafting

/-- What a step leads to; none if a call fails. -/
def step? (s : Drafting) : DraftStep → Option Drafting
  | .set c =>
    match s.draft.set? c.setter c.args with
    | some (.ok d) => some { s with draft := d }
    | _ => none
  | .build fresh => some { s with built := s.built ++ [s.draft.build fresh] }

/-- What steps lead to that begin with an empty draft; none if a call fails. -/
def run? (t : EntityType) (steps : List DraftStep) : Option Drafting :=
  steps.foldlM step? { draft := .empty t }

theorem set?_of_step? {s s' : Drafting} {c : SetterCall} (h : s.step? (.set c) = some s') :
    s.draft.set? c.setter c.args = some (.ok s'.draft) ∧ s'.built = s.built := by
  rw [step?] at h
  split at h
  · next d hd =>
    cases h
    exact ⟨hd, rfl⟩
  · cases h

theorem exists_step?_iff {s : Drafting} {step : DraftStep} :
    (∃ s', s.step? step = some s') ↔ ∀ c ∈ step.call?, s.draft.type.Takes c := by
  cases step with
  | set c =>
    constructor
    · rintro ⟨s', h⟩ _ ⟨⟩
      exact Draft.takes_of_set? (set?_of_step? h).1
    · intro h
      obtain ⟨d, hd⟩ := Draft.exists_set?_of_takes (h c rfl)
      exact ⟨{ s with draft := d }, by rw [step?, hd]⟩
  | build fresh => exact ⟨fun _ _ hc => (nomatch hc), fun _ => ⟨_, rfl⟩⟩

theorem run?_append (t : EntityType) (before after : List DraftStep) :
    run? t (before ++ after) = (run? t before).bind (after.foldlM step? ·) :=
  List.foldlM_append

theorem run?_concat_eq_some_iff {t : EntityType} {steps : List DraftStep} {step : DraftStep}
    {s : Drafting} :
    run? t (steps ++ [step]) = some s ↔
      ∃ s₀, run? t steps = some s₀ ∧ s₀.step? step = some s := by
  simp [run?_append, Option.bind_eq_some_iff]

theorem calls_concat (steps : List DraftStep) (step : DraftStep) :
    calls (steps ++ [step]) = calls steps ++ step.call?.toList := by
  rw [calls, List.filterMap_append, ← calls]
  cases step <;> rfl

/-- The draft is always the one that the calls so far amount to. -/
theorem draft_of_run? {t : EntityType} {steps : List DraftStep} {s : Drafting}
    (h : run? t steps = some s) : s.draft = .after t (calls steps) := by
  induction steps using List.reverseRecOn generalizing s with
  | nil =>
    cases h
    exact (Draft.after_nil t).symm
  | append_singleton steps step ih =>
    obtain ⟨s₀, hs₀, hstep⟩ := run?_concat_eq_some_iff.mp h
    rw [calls_concat]
    cases step with
    | set c =>
      have hset := (set?_of_step? hstep).1
      rw [ih hs₀] at hset
      exact (Draft.after_concat hset).symm
    | build fresh =>
      cases hstep
      exact (ih hs₀).trans (congrArg (Draft.after t) (List.append_nil _).symm)

/-- Whether a call fails depends on nothing that has been done before. -/
theorem exists_run?_iff {t : EntityType} {steps : List DraftStep} :
    (∃ s, run? t steps = some s) ↔ ∀ c ∈ calls steps, t.Takes c := by
  induction steps using List.reverseRecOn with
  | nil => exact ⟨fun _ _ hc => (nomatch hc), fun _ => ⟨_, rfl⟩⟩
  | append_singleton steps step ih =>
    have htype : ∀ s₀, run? t steps = some s₀ → s₀.draft.type = t := fun s₀ hs₀ => by
      rw [draft_of_run? hs₀, Draft.type_after]
    rw [calls_concat, List.forall_mem_append, ← ih]
    simp only [run?_concat_eq_some_iff, Option.mem_toList]
    constructor
    · rintro ⟨s, s₀, hs₀, hstep⟩
      have htakes := exists_step?_iff.mp ⟨s, hstep⟩
      rw [htype s₀ hs₀] at htakes
      exact ⟨⟨s₀, hs₀⟩, htakes⟩
    · rintro ⟨⟨s₀, hs₀⟩, htakes⟩
      rw [← htype s₀ hs₀] at htakes
      obtain ⟨s, hstep⟩ := exists_step?_iff.mpr htakes
      exact ⟨s, s₀, hs₀, hstep⟩

/-- What has been built stays, and each time an entity is built there is one outcome more. -/
theorem built_of_foldlM {steps : List DraftStep} {s s' : Drafting}
    (h : steps.foldlM step? s = some s') :
    ∃ later, s'.built = s.built ++ later ∧ later.length = builds steps := by
  induction steps generalizing s with
  | nil =>
    cases h
    exact ⟨[], (List.append_nil _).symm, rfl⟩
  | cons step steps ih =>
    obtain ⟨s₁, hs₁, h⟩ := Option.bind_eq_some_iff.mp h
    obtain ⟨later, hlater, hlength⟩ := ih h
    cases step with
    | set c => exact ⟨later, by rw [hlater, (set?_of_step? hs₁).2], hlength⟩
    | build fresh =>
      cases hs₁
      exact ⟨s.draft.build fresh :: later, by simp [hlater],
        by simp [hlength, builds, DraftStep.call?]⟩

theorem built_of_run? {t : EntityType} {before after : List DraftStep} {fresh : String}
    {s : Drafting} (h : run? t (before ++ .build fresh :: after) = some s) :
    ∃ s₀ later, run? t before = some s₀ ∧
      s.built = s₀.built ++ Entity.ofArguments fresh t (t.argumentsAfter (calls before)) :: later ∧
      s₀.built.length = builds before ∧ later.length = builds after := by
  rw [run?_append, Option.bind_eq_some_iff] at h
  obtain ⟨s₀, hs₀, h⟩ := h
  rw [List.foldlM_cons, step?, Option.bind_eq_bind, Option.bind_some] at h
  obtain ⟨earlier, hearlier, hbefore⟩ := built_of_foldlM hs₀
  obtain ⟨later, hlater, hafter⟩ := built_of_foldlM h
  refine ⟨s₀, later, hs₀, ?_, ?_, hafter⟩
  · rw [Draft.ofArguments_argumentsAfter, ← draft_of_run? hs₀]
    exact hlater.trans (List.append_assoc ..)
  · rw [hearlier]
    exact hbefore

/-- Setters are called in any order and any number of times, with entities built in between.  That
goes well exactly if each call is one that the type takes, whatever has been done before.  Then each
time the outcome, be it an entity or an error, is that of the constructor with the arguments that
the calls so far amount to, if it is offered the same id.  It comes right after the outcomes so far,
and it stays where it is, as they do. -/
theorem built_as_constructed (t : EntityType) :
    (∀ steps : List DraftStep,
      (∃ s, run? t steps = some s) ↔ ∀ c ∈ calls steps, t.Takes c) ∧
    ∀ (before after : List DraftStep) (fresh : String) (s : Drafting),
      run? t (before ++ .build fresh :: after) = some s →
      ∃ s₀ later, run? t before = some s₀ ∧
        s.built =
          s₀.built ++ Entity.ofArguments fresh t (t.argumentsAfter (calls before)) :: later ∧
        s₀.built.length = builds before ∧ later.length = builds after :=
  ⟨fun _ => exists_run?_iff, fun _ _ _ _ => built_of_run?⟩

/-- Steps with a reference that is built too early, and whose map is set anew later. -/
def retargeted : List DraftStep :=
  [.set ⟨"kind", [.scalar (.word (.referenceKind .extend))]⟩,
    .set ⟨"add_metadata", [.scalar (.text "a"), .scalar (.int 1)]⟩, .build "",
    .set ⟨"target_name", [.scalar (.text "Base")]⟩,
    .set ⟨"metadata", [.map [(.scalar (.text "b"), .scalar (.int 2))]]⟩,
    .set ⟨"add_metadata", [.scalar (.text "c"), .scalar (.int 3)]⟩,
    .set ⟨"add_metadata", [.scalar (.text "b"), .scalar (.int 4)]⟩,
    .set ⟨"kind", [.scalar (.word (.referenceKind .implement))]⟩]

theorem built_as_constructed_retargeted :
    ∃ s, run? .reference (retargeted ++ .build "" :: [.set ⟨"target_name", [.null]⟩]) = some s ∧
      s.built = [.error (.blank "target_name"),
        Entity.ofArguments "" .reference [("kind", .scalar (.word (.referenceKind .implement))),
          ("target_name", .scalar (.text "Base")), ("position", .null),
          ("metadata", .map [(.scalar (.text "b"), .scalar (.int 4)),
            (.scalar (.text "c"), .scalar (.int 3))])]] ∧
      s.built[1]? = some (.ok (.reference ⟨.implement, "Base", none,
        [("b", .scalar (.int 4)), ("c", .scalar (.int 3))]⟩)) := by
  obtain ⟨s, hs⟩ : ∃ s, run? .reference
      (retargeted ++ .build "" :: [.set ⟨"target_name", [.null]⟩]) = some s := ⟨_, rfl⟩
  obtain ⟨s₀, later, hs₀, hbuilt, -, hlater⟩ :=
    (built_as_constructed .reference).2 retargeted [.set ⟨"target_name", [.null]⟩] "" s hs
  have hearlier : s₀.built = [.error (.blank "target_name")] := by
    cases hs₀
    rfl
  have hnone : later = [] := List.length_eq_zero_iff.mp hlater
  rw [hearlier, hnone] at hbuilt
  refine ⟨s, hs, hbuilt, ?_⟩
  rw [hbuilt]
  rfl

end Drafting

end Entity

end CodeOutline
