/-
CodeOutline/Proofs/Entity/Nesting.lean

Scopes nest, however they have been built.

`Obtained` says that a scope comes from its constructor or from the setters of a draft, and so do
all scopes that were handed over on the way.  Only the children of a scope are looked at when it
is built.  What they are looked at for passes on from scope to scope (`contains_trans`), so a scope
spans what is in it at any depth: `Within` walks down a tree of scopes, and along it a scope stays
one that can be obtained (`Obtained.of_within`) and stays inside what it stands in
(`Obtained.contains_of_within`).

The main statement adds the converse: what is looked at is all that is asked of a scope whose parts
have the right types (`nested_of_obtained`).
-/
import CodeOutline.Proofs.Entity.Building
import Mathlib.Data.List.Induction

namespace CodeOutline

open Outcome

/-! ### Places -/

/-- Places give values exactly when they hold them. -/
theorem fillAll_eq_ok_iff {α : Type} {slots : List (Slot α)} {as : List α} :
    fillAll slots = .ok as ↔ slots = as.map Except.ok := by
  constructor
  · intro h
    induction slots generalizing as with
    | nil =>
      cases h
      rfl
    | cons slot slots ih =>
      obtain ⟨a, rfl, h'⟩ := bind_eq_ok_iff.mp h
      obtain ⟨rest, hrest, hcons⟩ := bind_eq_ok_iff.mp h'
      cases hcons
      rw [List.map_cons, ih hrest]
  · rintro rfl
    exact fillAll_map_ok as

namespace Scope

/-! ### Drafts -/

/-- The draft of a constructor whose arguments all have the right types. -/
def Draft.filled (level : ScopeLevel) (start stop : Position) (children : List Scope)
    (metadata : List (Scalar × Value)) : Draft :=
  ⟨.ok level, .ok start, .ok stop, .ok (children.map .ok), .ok metadata⟩

/-- A scope of parts of the right types is checked twice: for its ends, then for its children. -/
theorem Draft.build_filled (level : ScopeLevel) (start stop : Position) (children : List Scope)
    (metadata : List (Scalar × Value)) :
    (filled level start stop children metadata).build =
      if start.isAfter stop = true then .error .spanReversed
      else if ∀ c ∈ children, (⟨level, start, stop, [], []⟩ : Scope).contains c = true then
        .ok ⟨level, start, stop, children, Metadata.ofEntries metadata⟩
      else .error .childOutside := by
  have hbuild : (filled level start stop children metadata).build =
      (require (start.isAfter stop = false) .spanReversed >>= fun _ =>
        require (children.all (⟨level, start, stop, children, []⟩ : Scope).contains = true)
          .childOutside >>= fun _ =>
        .ok ⟨level, start, stop, children, Metadata.ofEntries metadata⟩) := by
    simp only [filled, build, ok_bind, fillAll_map_ok_bind, pure_eq]
  rw [hbuild]
  rcases hends : start.isAfter stop with - | -
  · rw [require, if_pos rfl, ok_bind, if_neg Bool.false_ne_true]
    by_cases hin : ∀ c ∈ children, (⟨level, start, stop, [], []⟩ : Scope).contains c = true
    · have hall : children.all (⟨level, start, stop, children, []⟩ : Scope).contains = true :=
        List.all_eq_true.mpr hin
      rw [if_pos hin, require, if_pos hall, ok_bind]
    · have hall : ¬ children.all (⟨level, start, stop, children, []⟩ : Scope).contains = true :=
        fun h => hin (List.all_eq_true.mp h)
      rw [if_neg hin, require, if_neg hall]
      rfl
  · rfl

/-- A draft that can be built holds the parts of its scope. -/
theorem Draft.eq_filled_of_build {d : Draft} {s : Scope} (h : d.build = .ok s) :
    ∃ metadata, d = filled s.level s.start s.stop s.children metadata := by
  obtain ⟨level, hlevel, h⟩ := bind_eq_ok_iff.mp h
  obtain ⟨start, hstart, h⟩ := bind_eq_ok_iff.mp h
  obtain ⟨stop, hstop, h⟩ := bind_eq_ok_iff.mp h
  obtain ⟨-, -, h⟩ := bind_eq_ok_iff.mp h
  obtain ⟨slots, hslots, h⟩ := bind_eq_ok_iff.mp h
  obtain ⟨children, hchildren, h⟩ := bind_eq_ok_iff.mp h
  obtain ⟨-, -, h⟩ := bind_eq_ok_iff.mp h
  obtain ⟨metadata, hmetadata, h⟩ := bind_eq_ok_iff.mp h
  cases h
  rw [fillAll_eq_ok_iff.mp hchildren] at hslots
  refine ⟨metadata, ?_⟩
  rw [filled, ← hlevel, ← hstart, ← hstop, ← hslots, ← hmetadata]

/-- The scopes that a setter hands over. -/
def Call.scopes : Call → List Scope
  | .addChild slot => slot.toOption.toList
  | .addChildren slots => slots.filterMap Except.toOption
  | _ => []

theorem exists_of_map_append_eq_ok {slots : Slot (List (Slot Scope))}
    {added after : List (Slot Scope)} (h : slots.map (· ++ added) = .ok after) :
    ∃ before, slots = .ok before ∧ after = before ++ added := by
  rcases slots with e | before
  · cases h
  · cases h
    exact ⟨before, rfl, rfl⟩

/-- A child of a draft after a setter was there before or has been handed over. -/
theorem Draft.mem_children_apply {d : Draft} {call : Call} {slots : List (Slot Scope)} {c : Scope}
    (h : (d.apply call).children = .ok slots) (hc : .ok c ∈ slots) :
    (∃ before, d.children = .ok before ∧ .ok c ∈ before) ∨ c ∈ call.scopes := by
  cases call with
  | addChild slot =>
    obtain ⟨before, hbefore, rfl⟩ := exists_of_map_append_eq_ok h
    rcases List.mem_append.mp hc with hc | hc
    · exact .inl ⟨before, hbefore, hc⟩
    · obtain rfl := List.mem_singleton.mp hc
      exact .inr (List.mem_singleton_self c)
  | addChildren added =>
    obtain ⟨before, hbefore, rfl⟩ := exists_of_map_append_eq_ok h
    rcases List.mem_append.mp hc with hc | hc
    · exact .inl ⟨before, hbefore, hc⟩
    · exact .inr (List.mem_filterMap.mpr ⟨.ok c, hc, rfl⟩)
  -- the other setters leave the children alone
  | level | start | stop | metadata | addMetadata => exact .inl ⟨slots, h, hc⟩

/-- The children of a draft that is filled by setters alone have been handed over by them. -/
theorem Draft.mem_scopes_of_mem_children {calls : List Call} {slots : List (Slot Scope)}
    {c : Scope} (h : (calls.foldl Draft.apply {}).children = .ok slots) (hc : .ok c ∈ slots) :
    ∃ call ∈ calls, c ∈ call.scopes := by
  induction calls using List.reverseRecOn generalizing slots with
  | nil =>
    cases h
    cases hc
  | append_singleton calls call ih =>
    rw [List.foldl_append] at h
    rcases mem_children_apply h hc with ⟨before, hbefore, hmem⟩ | hmem
    · obtain ⟨call', hcall', hmem'⟩ := ih hbefore hmem
      exact ⟨call', List.mem_append_left _ hcall', hmem'⟩
    · exact ⟨call, List.mem_append_right _ (List.mem_singleton_self call), hmem⟩

/-! ### Scopes in scopes -/

/-- A scope and those in it, at any depth. -/
inductive Within : Scope → Scope → Prop
  | self (s : Scope) : Within s s
  | child {s c t : Scope} (hc : c ∈ s.children) (ht : Within c t) : Within s t

/-- The scopes that come from the constructor, or from the setters of a draft, where those that
are handed over come from there too. -/
inductive Obtained : Scope → Prop
  | construct {d : Draft} {s : Scope}
      (given : ∀ slots, d.children = .ok slots → ∀ c, .ok c ∈ slots → Obtained c)
      (built : d.build = .ok s) : Obtained s
  | set {calls : List Call} {s : Scope}
      (given : ∀ call ∈ calls, ∀ c ∈ call.scopes, Obtained c)
      (built : (calls.foldl Draft.apply {}).build = .ok s) : Obtained s

/-- Setters do what the constructor does with what they have handed over. -/
theorem Obtained.exists_draft {s : Scope} (h : Obtained s) :
    ∃ d : Draft, d.build = .ok s ∧
      ∀ slots, d.children = .ok slots → ∀ c, .ok c ∈ slots → Obtained c := by
  rcases h with ⟨given, built⟩ | ⟨given, built⟩
  · exact ⟨_, built, given⟩
  · refine ⟨_, built, fun slots hslots c hc => ?_⟩
    obtain ⟨call, hcall, hmem⟩ := Draft.mem_scopes_of_mem_children hslots hc
    exact given call hcall c hmem

/-- What is checked when a scope is built holds of it. -/
theorem Obtained.checked {s : Scope} (h : Obtained s) :
    s.start.isAfter s.stop = false ∧ ∀ c ∈ s.children, s.contains c = true ∧ Obtained c := by
  obtain ⟨d, built, given⟩ := h.exists_draft
  obtain ⟨metadata, rfl⟩ := Draft.eq_filled_of_build built
  rw [Draft.build_filled] at built
  split at built
  · cases built
  · next hends =>
    split at built
    · next hin =>
      have hmem : ∀ c ∈ s.children, (.ok c : Slot Scope) ∈ s.children.map Except.ok :=
        fun c hc => List.mem_map_of_mem hc
      exact ⟨by simpa using hends, fun c hc => ⟨hin c hc, given _ rfl c (hmem c hc)⟩⟩
    · cases built

theorem Obtained.of_within {s t : Scope} (h : Obtained s) (ht : Within s t) : Obtained t := by
  induction ht with
  | self => exact h
  | child hc _ ih => exact ih (h.checked.2 _ hc).2

/-- A scope spans what is in it, at any depth. -/
theorem Obtained.contains_of_within {s t : Scope} (h : Obtained s) (ht : Within s t) :
    s.contains t = true := by
  induction ht with
  | self s => exact contains_refl s
  | child hc _ ih =>
    have hchild := h.checked.2 _ hc
    exact contains_trans hchild.1 (ih hchild.2)

/-- In every scope that can be obtained, at any depth, the start is not after the end, and each
scope spans those in it.  Conversely, parts of the right types make a scope exactly when the start
is not after the end and every child is spanned; if not, the start or the children are refused. -/
theorem nested_of_obtained :
    (∀ s, Obtained s → ∀ a, Within s a →
      a.start.isAfter a.stop = false ∧ ∀ d, Within a d → a.contains d = true) ∧
    ∀ (level : ScopeLevel) (start stop : Position) (children : List Scope)
      (metadata : List (Scalar × Value)),
      ((∃ s, (Draft.filled level start stop children metadata).build = .ok s) ↔
        start.isAfter stop = false ∧
        ∀ c ∈ children, (⟨level, start, stop, [], []⟩ : Scope).contains c = true) ∧
      ∀ e, (Draft.filled level start stop children metadata).build = .error e →
        e.category = .refused ∧
        (e.field? = some "start" ∧ start.isAfter stop = true ∨
          e.field? = some "children" ∧ start.isAfter stop = false ∧
          ∃ c ∈ children, (⟨level, start, stop, [], []⟩ : Scope).contains c = false) := by
  refine ⟨fun s hs a ha => ?_, fun level start stop children metadata => ?_⟩
  · have hobtained := hs.of_within ha
    exact ⟨hobtained.checked.1, fun d hd => hobtained.contains_of_within hd⟩
  · rw [Draft.build_filled]
    split
    · next hends => simp [hends, ArgumentError.category, ArgumentError.field?]
    · next hends =>
      rw [Bool.not_eq_true] at hends
      split
      · next hin => exact ⟨⟨fun _ => ⟨hends, hin⟩, fun _ => ⟨_, rfl⟩⟩, fun e he => nomatch he⟩
      · next hin =>
        refine ⟨⟨fun ⟨_, h⟩ => (nomatch h), fun h => absurd h.2 hin⟩, ?_⟩
        rintro e ⟨⟩
        refine ⟨rfl, .inr ⟨rfl, hends, ?_⟩⟩
        simpa using hin

/-- A block in the third line. -/
def thirdLine : Scope :=
  ⟨.block, { line := 3, column := 5, offset := 23 }, { line := 3, column := 9, offset := 27 },
    [], []⟩

/-- A function with that block in it. -/
def twoLines : Scope :=
  ⟨.function, { line := 2, column := 3, offset := 11 }, { line := 3, column := 9, offset := 27 },
    [thirdLine], []⟩

/-- A type with that function in it. -/
def threeLines : Scope :=
  ⟨.type, .origin, { line := 3, column := 9, offset := 27 }, [twoLines], []⟩

/-- The type is built from the function by its constructor, and the function from the block by
setters. -/
theorem threeLines_contains_thirdLine :
    Obtained threeLines ∧ Within threeLines thirdLine ∧
      threeLines.contains thirdLine = true := by
  have hblock : Obtained thirdLine := by
    refine .construct (d := .filled .block thirdLine.start thirdLine.stop [] []) ?_ rfl
    rintro slots ⟨⟩ c ⟨⟩
  have hfunction : Obtained twoLines := by
    refine @Obtained.set [.addChild (.ok thirdLine), .level (.ok .function),
      .stop (.ok twoLines.stop), .start (.ok twoLines.start)] _ ?_ rfl
    simpa [Call.scopes, Except.toOption] using hblock
  have htype : Obtained threeLines := by
    refine .construct
      (d := .filled .type threeLines.start threeLines.stop [twoLines] []) ?_ rfl
    rintro slots ⟨⟩ c hc
    obtain ⟨⟩ := List.mem_singleton.mp hc
    exact hfunction
  have hwithin : Within threeLines thirdLine :=
    .child (List.mem_singleton_self _) (.child (List.mem_singleton_self _) (.self _))
  exact ⟨htype, hwithin,
    (nested_of_obtained.1 threeLines htype threeLines (.self _)).2 thirdLine hwithin⟩

end Scope

end CodeOutline
