/-
CodeOutline/Proofs/Metadata/Writing.lean

Which metadata can be written.

Writing goes through a value part by part and fails only at a set whose members have no order.  A
set is sorted by comparing neighbours, and this goes well exactly if the members are all texts or
words, or all numbers, or there is at most one (`Scalar.firstUnordered?_eq_none_iff`).

`HingesOn` says of a result that it is there exactly if all sets of a list can be sorted, that it
has some property then, and that the error is otherwise about one of these sets.  It passes through
one step after another (`HingesOn.bind`) and through lists (`hingesOn_mapM`), so a value hinges on
the sets in it, at any depth (`Value.hingesOn_toJson`), and what is written is well formed.
-/
import CodeOutline.Metadata.Plain
import CodeOutline.Proofs.Assoc
import CodeOutline.Proofs.Json
import CodeOutline.Proofs.Outcome
import Mathlib.Data.List.Perm.Subperm

namespace CodeOutline

open Outcome

/-! ### Sorting -/

namespace Scalar

/-- A scalar that is sorted as a text: a text or a word. -/
def IsTextual (s : Scalar) : Prop := ∃ t, s.plain = .text t

/-- A scalar that is sorted as a number. -/
def IsNumber (s : Scalar) : Prop := ∃ d, s.number? = some d

theorem IsTextual.not_isNumber {s : Scalar} (h : s.IsTextual) : ¬ s.IsNumber := by
  obtain ⟨t, ht⟩ := h
  cases s <;> simp_all [plain, IsNumber, number?]

/-- Two texts have an order, and two numbers. -/
theorem ordered_iff {a b : Scalar} :
    a.ordered b = true ↔ (∃ s t, a = .text s ∧ b = .text t) ∨
      ∃ m n, a.number? = some m ∧ b.number? = some n := by
  unfold ordered less?
  split
  · next s t => exact iff_of_true rfl (.inl ⟨s, t, rfl, rfl⟩)
  · next hno =>
    have htexts : ¬ ∃ s t, a = .text s ∧ b = .text t := by
      rintro ⟨s, t, rfl, rfl⟩
      exact hno s t rfl rfl
    rw [or_iff_right htexts]
    split
    · next m n ha hb => exact iff_of_true rfl ⟨m, n, ha, hb⟩
    · next hno =>
      refine iff_of_false Bool.false_ne_true ?_
      rintro ⟨m, n, ha, hb⟩
      exact hno m n ha hb

theorem number?_plain (s : Scalar) : s.plain.number? = s.number? := by
  cases s <;> rfl

theorem ordered_plain_iff {a b : Scalar} :
    a.plain.ordered b.plain = true ↔
      a.IsTextual ∧ b.IsTextual ∨ a.IsNumber ∧ b.IsNumber := by
  rw [ordered_iff, number?_plain, number?_plain]
  exact or_congr exists_and_exists_comm.symm exists_and_exists_comm.symm

/-- Scalars that can be put in order: at most one, or all texts and words, or all numbers. -/
def Sortable (ss : List Scalar) : Prop :=
  ss.length ≤ 1 ∨ (∀ s ∈ ss, s.IsTextual) ∨ ∀ s ∈ ss, s.IsNumber

/-- Scalars whose neighbours have an order are all of the kind of the first. -/
theorem forall_of_firstUnordered?_eq_none {K : Scalar → Prop} {a : Scalar} {ss : List Scalar}
    (hK : ∀ b c : Scalar, K b → b.plain.ordered c.plain = true → K c) (ha : K a)
    (h : firstUnordered? ((a :: ss).map plain) = none) : ∀ s ∈ a :: ss, K s := by
  induction ss generalizing a with
  | nil => simpa using ha
  | cons b ss ih =>
    rw [List.map_cons, List.map_cons, firstUnordered?, ← List.map_cons] at h
    split at h
    · next hab => exact List.forall_mem_cons.mpr ⟨ha, ih (hK a b ha hab) h⟩
    · cases h

theorem firstUnordered?_eq_none_of_forall {ss : List Scalar}
    (h : ∀ a ∈ ss, ∀ b ∈ ss, a.plain.ordered b.plain = true) :
    firstUnordered? (ss.map plain) = none := by
  induction ss with
  | nil => rfl
  | cons a ss ih =>
    cases ss with
    | nil => rfl
    | cons b ss =>
      rw [List.map_cons, List.map_cons, firstUnordered?, ← List.map_cons,
        if_pos (h a (by simp) b (by simp))]
      exact ih fun x hx y hy => h x (List.mem_cons_of_mem _ hx) y (List.mem_cons_of_mem _ hy)

/-- All neighbours have an order exactly if there is one for all members. -/
theorem firstUnordered?_eq_none_iff {ss : List Scalar} :
    firstUnordered? (ss.map plain) = none ↔ Sortable ss := by
  constructor
  · intro h
    match ss with
    | [] => exact .inl (Nat.zero_le 1)
    | [a] => exact .inl (Nat.le_refl 1)
    | a :: b :: ss =>
      -- the first two are of one kind, and so are all that follow
      have hab : a.plain.ordered b.plain = true := by
        by_contra hab
        simp [firstUnordered?, hab] at h
      right
      rcases ordered_plain_iff.mp hab with ⟨ha, -⟩ | ⟨ha, -⟩
      · refine .inl (forall_of_firstUnordered?_eq_none (fun b c hb hbc => ?_) ha h)
        rcases ordered_plain_iff.mp hbc with ⟨-, hc⟩ | ⟨hb', -⟩
        · exact hc
        · exact absurd hb' hb.not_isNumber
      · refine .inr (forall_of_firstUnordered?_eq_none (fun b c hb hbc => ?_) ha h)
        rcases ordered_plain_iff.mp hbc with ⟨hb', -⟩ | ⟨-, hc⟩
        · exact absurd hb hb'.not_isNumber
        · exact hc
  · rintro (h | h | h)
    · match ss with
      | [] | [_] => rfl
    · exact firstUnordered?_eq_none_of_forall fun a ha b hb =>
        ordered_plain_iff.mpr (.inl ⟨h a ha, h b hb⟩)
    · exact firstUnordered?_eq_none_of_forall fun a ha b hb =>
        ordered_plain_iff.mpr (.inr ⟨h a ha, h b hb⟩)

end Scalar

/-- A failure is about a set: it has no order, and the types of two members that have none are
named. -/
def Unordered.IsOf (u : Unordered) (ss : List Scalar) : Prop :=
  ¬ Scalar.Sortable ss ∧ ∃ a b : Scalar, [a, b].Subperm ss ∧ a.plain.ordered b.plain = false ∧
    u = ⟨b.plain.typeName, a.plain.typeName⟩

theorem Scalar.exists_of_firstUnordered?_eq_some {ss : List Scalar} {u : Unordered}
    (h : firstUnordered? (ss.map plain) = some u) :
    ∃ a b : Scalar, [a, b].Sublist ss ∧ a.plain.ordered b.plain = false ∧
      u = ⟨b.plain.typeName, a.plain.typeName⟩ := by
  induction ss with
  | nil => cases h
  | cons a ss ih =>
    cases ss with
    | nil => cases h
    | cons b ss =>
      rw [List.map_cons, List.map_cons, firstUnordered?, ← List.map_cons] at h
      split at h
      · obtain ⟨c, d, hsub, hcd⟩ := ih h
        exact ⟨c, d, hsub.cons a, hcd⟩
      · next hab =>
        cases h
        exact ⟨a, b, .cons_cons a (.cons_cons b (List.nil_sublist _)), by simpa using hab, rfl⟩

/-! ### Results that hinge on sets -/

/-- A result is there exactly if all of some sets can be put in order.  It has a property then;
otherwise the error is about one of the sets. -/
def HingesOn {α : Type} (sets : List (List Scalar)) (P : α → Prop) : Except Unordered α → Prop
  | .ok a => (∀ ss ∈ sets, Scalar.Sortable ss) ∧ P a
  | .error u => ∃ ss ∈ sets, u.IsOf ss

section HingesOn

variable {α β : Type} {sets sets' : List (List Scalar)} {P : α → Prop} {Q : β → Prop}

theorem hingesOn_ok {a : α} (h : P a) : HingesOn [] P (.ok a) := ⟨by simp, h⟩

theorem HingesOn.congr {x : Except Unordered α} (hx : HingesOn sets P x) (h : sets = sets') :
    HingesOn sets' P x := h ▸ hx

/-- Two steps hinge on the sets of both. -/
theorem HingesOn.bind {x : Except Unordered α} {f : α → Except Unordered β}
    (hx : HingesOn sets P x) (hf : ∀ a, P a → HingesOn sets' Q (f a)) :
    HingesOn (sets ++ sets') Q (x >>= f) := by
  cases x with
  | error u =>
    obtain ⟨ss, hss, hu⟩ := hx
    exact ⟨ss, List.mem_append_left _ hss, hu⟩
  | ok a =>
    obtain ⟨hsets, ha⟩ := hx
    have hstep := hf a ha
    rw [ok_bind]
    cases hfa : f a with
    | error u =>
      rw [hfa] at hstep
      obtain ⟨ss, hss, hu⟩ := hstep
      exact ⟨ss, List.mem_append_right _ hss, hu⟩
    | ok b =>
      rw [hfa] at hstep
      exact ⟨List.forall_mem_append.mpr ⟨hsets, hstep.1⟩, hstep.2⟩

theorem HingesOn.map {x : Except Unordered α} {f : α → β} (hx : HingesOn sets P x)
    (hf : ∀ a, P a → Q (f a)) : HingesOn sets Q (x.map f) := by
  cases x with
  | error u => exact hx
  | ok a => exact ⟨hx.1, hf a hx.2⟩

/-- A list hinges on the sets of all its items. -/
theorem hingesOn_mapM {γ : Type} {f : γ → Except Unordered α} {xs : List γ}
    {S : γ → List (List Scalar)} (h : ∀ x ∈ xs, HingesOn (S x) P (f x)) :
    HingesOn (xs.flatMap S) (∀ y ∈ ·, P y) (xs.mapM f) := by
  induction xs with
  | nil => exact hingesOn_ok (by simp)
  | cons x xs ih =>
    obtain ⟨hx, hxs⟩ := List.forall_mem_cons.mp h
    rw [List.mapM_cons, List.flatMap_cons]
    refine hx.bind fun y hy => ((ih hxs).bind fun ys hys => hingesOn_ok ?_).congr
      (List.append_nil _)
    exact List.forall_mem_cons.mpr ⟨hy, hys⟩

/-- There is a result exactly if all sets can be put in order. -/
theorem HingesOn.exists_iff {x : Except Unordered α} (hx : HingesOn sets P x) :
    (∃ a, x = .ok a) ↔ ∀ ss ∈ sets, Scalar.Sortable ss := by
  cases x with
  | error u =>
    obtain ⟨ss, hss, hu⟩ := hx
    exact iff_of_false (by simp) fun h => hu.1 (h ss hss)
  | ok a => exact iff_of_true ⟨a, rfl⟩ hx.1

end HingesOn

/-! ### Values -/

/-- The members of a set can be sorted exactly if they can be put in order. -/
theorem Scalar.hingesOn_sorted (ss : List Scalar) :
    HingesOn [ss] (fun sorted => sorted.Perm (ss.map plain)) (sorted ss) := by
  rcases e : firstUnordered? (ss.map plain) with - | u
  · simp only [sorted, e]
    exact ⟨by simpa using firstUnordered?_eq_none_iff.mp e, List.mergeSort_perm _ _⟩
  · have hnot : ¬ Sortable ss := by
      rw [← firstUnordered?_eq_none_iff, e]
      simp
    obtain ⟨a, b, hsub, hab⟩ := exists_of_firstUnordered?_eq_some e
    simp only [sorted, e]
    exact ⟨ss, List.mem_singleton_self ss, hnot, a, b, hsub.subperm, hab⟩

/-- An object stays well formed when a member is written to it. -/
theorem Json.WellFormed.insert {members : List (String × Json)} {j : Json} (name : String)
    (h : (Json.obj members).WellFormed) (hj : j.WellFormed) :
    (Json.obj (Assoc.insert (· == ·) name j members)).WellFormed := by
  obtain ⟨hnames, hmembers⟩ := Json.wellFormed_obj_iff.mp h
  exact .obj (Assoc.nodup_keys_insert name j hnames) (Assoc.forall_mem_insert name hj hmembers)

namespace Value

mutual

/-- The sets in a value, at any depth. -/
def sets : Value → List (List Scalar)
  | .scalar _ => []
  | .list items => setsOfItems items
  | .set members => [members]
  | .map entries => setsOfEntries entries

/-- The sets in some values. -/
def setsOfItems : List Value → List (List Scalar)
  | [] => []
  | v :: vs => sets v ++ setsOfItems vs

/-- The sets in the values of some entries. -/
def setsOfEntries : List (Scalar × Value) → List (List Scalar)
  | [] => []
  | (_, v) :: es => sets v ++ setsOfEntries es

end

theorem setsOfItems_eq (vs : List Value) : setsOfItems vs = vs.flatMap sets := by
  induction vs with
  | nil => rfl
  | cons v vs ih => rw [setsOfItems, ih, List.flatMap_cons]

theorem setsOfEntries_eq (es : List (Scalar × Value)) :
    setsOfEntries es = es.flatMap (fun e => e.2.sets) := by
  induction es with
  | nil => rfl
  | cons e es ih => rw [setsOfEntries, ih, List.flatMap_cons]

theorem itemsToJson_eq (vs : List Value) : itemsToJson vs = vs.mapM toJson := by
  induction vs with
  | nil => rw [itemsToJson, List.mapM_nil, pure_eq]
  | cons v vs ih => rw [itemsToJson, ih, List.mapM_cons]

/-- A value without tokens, which stand for what is no value. -/
inductive TokenFree : Value → Prop
  | scalar {s : Scalar} (h : ∀ t, s ≠ .token t) : TokenFree (.scalar s)
  | list {items : List Value} (h : ∀ v ∈ items, TokenFree v) : TokenFree (.list items)
  | set {members : List Scalar} (h : ∀ s ∈ members, ∀ t, s ≠ .token t) : TokenFree (.set members)
  | map {entries : List (Scalar × Value)} (h : ∀ e ∈ entries, TokenFree e.2) :
    TokenFree (.map entries)

theorem wellFormed_toJson_scalar {s : Scalar} (h : ∀ t, s ≠ .token t) : s.toJson.WellFormed := by
  cases s with
  | token t => exact absurd rfl (h t)
  | _ => simp [Scalar.toJson]

/-- A scalar that is no token is sorted as one that is none. -/
theorem wellFormed_toJson_plain {s : Scalar} (h : ∀ t, s ≠ .token t) :
    s.plain.toJson.WellFormed := by
  cases s with
  | word w => exact .str w.code
  | _ => exact wellFormed_toJson_scalar h

/-- Entries are written one after the other, and of two with one key the later is left. -/
theorem hingesOn_entriesToJson {es : List (Scalar × Value)} {done : List (String × Json)}
    (h : ∀ e ∈ es, HingesOn e.2.sets Json.WellFormed e.2.toJson)
    (hdone : (Json.obj done).WellFormed) :
    HingesOn (es.flatMap (fun e => e.2.sets)) (fun ms => (Json.obj ms).WellFormed)
      (entriesToJson es done) := by
  induction es generalizing done with
  | nil =>
    rw [entriesToJson]
    exact hingesOn_ok hdone
  | cons e es ih =>
    obtain ⟨he, hes⟩ := List.forall_mem_cons.mp h
    rw [entriesToJson, List.flatMap_cons]
    exact he.bind fun j hj => ih hes (hdone.insert e.1.render hj)

/-- A value can be written exactly if the sets in it can be put in order. -/
theorem hingesOn_toJson {v : Value} (h : v.TokenFree) :
    HingesOn v.sets Json.WellFormed v.toJson := by
  induction h with
  | scalar hs =>
    rw [toJson]
    exact hingesOn_ok (wellFormed_toJson_scalar hs)
  | list _ ih =>
    rw [toJson, sets, itemsToJson_eq, setsOfItems_eq]
    exact (hingesOn_mapM ih).map fun _ => .arr
  | set hs =>
    rw [toJson, sets]
    refine (Scalar.hingesOn_sorted _).map fun sorted hperm => .arr (List.forall_mem_map.mpr ?_)
    intro s hmem
    obtain ⟨s, hs', rfl⟩ := List.mem_map.mp (hperm.mem_iff.mp hmem)
    exact wellFormed_toJson_plain (hs s hs')
  | map _ ih =>
    rw [toJson, sets, setsOfEntries_eq]
    exact (hingesOn_entriesToJson ih (by simp)).map fun _ h => h

end Value

/-! ### Metadata -/

namespace Metadata

/-- The sets in metadata, at any depth. -/
def sets (m : Metadata) : List (List Scalar) := (Value.map m.toEntries).sets

/-- Metadata without tokens. -/
def TokenFree (m : Metadata) : Prop := ∀ e ∈ m, e.2.TokenFree

theorem hingesOn_toJson {m : Metadata} (h : m.TokenFree) :
    HingesOn m.sets Json.WellFormed m.toJson :=
  Value.hingesOn_toJson (.map (List.forall_mem_map.mpr h))

end Metadata

end CodeOutline
