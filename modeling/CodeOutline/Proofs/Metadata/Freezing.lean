/-
CodeOutline/Proofs/Metadata/Freezing.lean

Metadata that is fixed is written like the map it was made from.

When an entity is built the keys of its metadata become text, and of two keys with one text the
later wins; the keys of the maps inside wait for this until they are written.  Writing a map goes
through its entries one by one, where each key is written as its text over what is there
(`Value.entriesToJson_eq_ok_iff`).  So it does not matter whether keys become text before or while
they are written: entries that are written over each other before correspond to members that are
written over each other afterwards (`Assoc.forall₂_insertAll`), and nothing is left to be written
over then (`Assoc.ofList_of_nodup`).  This is `Metadata.toJson_ofEntries`.

`Value.Depicts` says which JSON value a value is written as, without saying how: keys are their
texts, the later one of two wins, sequences are arrays, sets arrays in ascending order, and words
their codes (`Value.depicts_of_toJson`).
-/
import CodeOutline.Proofs.Metadata.Equality
import CodeOutline.Proofs.Metadata.Faithful

namespace CodeOutline

open Outcome

/-! ### Entries that are written over each other -/

namespace Assoc

section Entries

variable {κ α β : Type} {same : κ → κ → Bool} {R : α → β → Prop}

/-- Two entries with one key and values that are related. -/
def EntryRel (R : α → β → Prop) (e : κ × α) (f : κ × β) : Prop := e.1 = f.1 ∧ R e.2 f.2

theorem forall₂_insert (k : κ) {v : α} {w : β} (hvw : R v w) {es : List (κ × α)}
    {fs : List (κ × β)} (h : List.Forall₂ (EntryRel R) es fs) :
    List.Forall₂ (EntryRel R) (insert same k v es) (insert same k w fs) := by
  induction h with
  | nil => exact .cons ⟨rfl, hvw⟩ .nil
  | @cons e f es fs hef hrest ih =>
    rw [insert, insert, hef.1]
    split
    · exact .cons ⟨rfl, hvw⟩ hrest
    · exact .cons ⟨rfl, hef.2⟩ ih

/-- Entries that correspond to each other still do when they are written one after the other. -/
theorem forall₂_insertAll {new : List (κ × α)} {new' : List (κ × β)}
    (hnew : List.Forall₂ (EntryRel R) new new') {es : List (κ × α)} {fs : List (κ × β)}
    (h : List.Forall₂ (EntryRel R) es fs) :
    List.Forall₂ (EntryRel R) (insertAll same new es) (insertAll same new' fs) := by
  induction hnew generalizing es fs with
  | nil => exact h
  | @cons e f new new' hef _ ih =>
    rw [insertAll, insertAll, List.foldl_cons, List.foldl_cons, hef.1]
    exact ih (forall₂_insert f.1 hef.2 h)

end Entries

end Assoc

/-! ### Writing entries -/

namespace Value

/-- The members that entries are written as, before they are written over each other. -/
def MembersOf (es : List (Scalar × Value)) (js : List (String × Json)) : Prop :=
  List.Forall₂ (fun e n => n.1 = e.1.render ∧ e.2.toJson = .ok n.2) es js

theorem MembersOf.keys_eq {es : List (Scalar × Value)} {js : List (String × Json)}
    (h : MembersOf es js) : Assoc.keys js = es.map (fun e => e.1.render) := by
  induction h with
  | nil => rfl
  | cons hn _ ih => rw [Assoc.keys_cons, List.map_cons, ih, hn.1]

theorem entriesToJson_eq_ok_iff {es : List (Scalar × Value)} {done ms : List (String × Json)} :
    entriesToJson es done = .ok ms ↔
      ∃ js, MembersOf es js ∧ ms = Assoc.insertAll (· == ·) js done := by
  induction es generalizing done with
  | nil =>
    rw [entriesToJson, Except.ok.injEq]
    constructor
    · rintro rfl
      exact ⟨[], .nil, rfl⟩
    · rintro ⟨js, hjs, rfl⟩
      cases hjs
      rfl
  | cons e es ih =>
    rw [entriesToJson, bind_eq_ok_iff]
    simp only [ih]
    constructor
    · rintro ⟨j, hj, js, hjs, rfl⟩
      exact ⟨(e.1.render, j) :: js, .cons ⟨rfl, hj⟩ hjs, rfl⟩
    · rintro ⟨js, hjs, rfl⟩
      cases hjs with
      | @cons _ n _ js hn hjs =>
        obtain ⟨name, j⟩ := n
        obtain ⟨rfl, hj⟩ := hn
        exact ⟨j, hj, js, hjs, rfl⟩

theorem toJson_map_eq_ok_iff {es : List (Scalar × Value)} {j : Json} :
    (map es).toJson = .ok j ↔
      ∃ js, MembersOf es js ∧ j = .obj (Assoc.ofList (· == ·) js) := by
  rw [toJson, map_eq_ok_iff]
  simp only [entriesToJson_eq_ok_iff]
  constructor
  · rintro ⟨ms, ⟨js, hjs, rfl⟩, rfl⟩
    exact ⟨js, hjs, rfl⟩
  · rintro ⟨js, hjs, rfl⟩
    exact ⟨_, ⟨js, hjs, rfl⟩, rfl⟩

end Value

/-- A map whose keys have become text is written like the map itself. -/
theorem Metadata.toJson_ofEntries {es : List (Scalar × Value)} {j : Json}
    (h : (Value.map es).toJson = .ok j) : (Metadata.ofEntries es).toJson = .ok j := by
  obtain ⟨js, hjs, rfl⟩ := Value.toJson_map_eq_ok_iff.mp h
  -- entries with text keys, and the members they are written as
  have hentries : List.Forall₂ (Assoc.EntryRel (fun (v : Value) (j : Json) => v.toJson = .ok j))
      (es.map (fun e => (e.1.render, e.2))) js := by
    rw [List.forall₂_map_left_iff]
    exact hjs.imp fun e n hn => ⟨hn.1.symm, hn.2⟩
  have hkept : List.Forall₂ (Assoc.EntryRel fun (v : Value) (j : Json) => v.toJson = .ok j)
      (Metadata.ofEntries es) (Assoc.ofList (· == ·) js) :=
    Assoc.forall₂_insertAll hentries .nil
  have hmembers : Value.MembersOf (Metadata.ofEntries es).toEntries (Assoc.ofList (· == ·) js) := by
    rw [Metadata.toEntries, Value.MembersOf, List.forall₂_map_left_iff]
    exact hkept.imp fun e n hn => ⟨hn.1.symm, hn.2⟩
  exact Value.toJson_map_eq_ok_iff.mpr ⟨_, hmembers, by rw [Assoc.ofList_ofList]⟩

/-- Metadata whose keys are text already is left as it is. -/
theorem Metadata.ofEntries_toEntries {m : Metadata} (h : (Assoc.keys m).Nodup) :
    Metadata.ofEntries m.toEntries = m := by
  have hmap : m.toEntries.map (fun e => (e.1.render, e.2)) = m := by
    rw [Metadata.toEntries, List.map_map]
    exact List.map_id m
  rw [Metadata.ofEntries, hmap, Assoc.ofList_of_nodup h]

theorem Metadata.ofEntries_ofEntries (es : List (Scalar × Value)) :
    Metadata.ofEntries (Metadata.ofEntries es).toEntries = Metadata.ofEntries es :=
  Metadata.ofEntries_toEntries (Assoc.nodup_keys_ofList _)

/-! ### Ascending order -/

/-- A list is in order when it has been sorted if its items can all be compared with each other. -/
theorem pairwise_mergeSort_of_mem {α : Type} {le : α → α → Bool} {items : List α}
    (trans : ∀ a ∈ items, ∀ b ∈ items, ∀ c ∈ items, le a b = true → le b c = true → le a c = true)
    (total : ∀ a ∈ items, ∀ b ∈ items, (le a b || le b a) = true) :
    (items.mergeSort le).Pairwise (fun a b => le a b = true) := by
  -- the items are sorted like the members of the type of these items
  have hmap : items.mergeSort le
      = (items.attach.mergeSort (fun a b => le a.1 b.1)).map Subtype.val := by
    have hval := List.map_mergeSort (f := Subtype.val) (s := le)
      (r := fun a b : { x // x ∈ items } => le a.1 b.1) (l := items.attach) fun _ _ _ _ => rfl
    rw [hval, List.attach_map_subtype_val]
  rw [hmap, List.pairwise_map]
  exact List.pairwise_mergeSort
    (fun a b c => trans a.1 a.2 b.1 b.2 c.1 c.2) (fun a b => total a.1 a.2 b.1 b.2) _

theorem Decimal.less_eq_false_iff {a b : Decimal} {e : Int} (ha : e ≤ a.exponent)
    (hb : e ≤ b.exponent) : a.less b = false ↔ b.scaled e ≤ a.scaled e := by
  have hle : e ≤ min a.exponent b.exponent := Int.le_min.mpr ⟨ha, hb⟩
  have hpow : (0 : Int) < (Nat.pow 10 (min a.exponent b.exponent - e).toNat : Nat) :=
    Int.natCast_pos.mpr (Nat.pow_pos (by decide))
  rw [scaled_of_le hle (Int.min_le_left _ _), scaled_of_le hle (Int.min_le_right _ _),
    Int.mul_le_mul_right hpow]
  simp [less]

namespace Scalar

/-- Two scalars stand in ascending order: they can be compared, and the second one is not less. -/
def Ascends (a b : Scalar) : Prop := b.less? a = some false

theorem ascends_text {s t : String} : Ascends (.text s) (.text t) ↔ s ≤ t := by
  show some (decide (t < s)) = some false ↔ s ≤ t
  rw [Option.some.injEq, decide_eq_false_iff_not, String.not_lt]

/-- Only texts, and only numbers, stand in an order. -/
theorem ascends_iff {a b : Scalar} :
    Ascends a b ↔ (∃ s t, a = .text s ∧ b = .text t ∧ s ≤ t) ∨
      ∃ m n, a.number? = some m ∧ b.number? = some n ∧ n.less m = false := by
  cases a with
  | text s =>
    cases b with
    | text t => simp [ascends_text, number?]
    | _ => simp [Ascends, less?, number?]
  | _ => cases b <;> simp [Ascends, less?, number?]

theorem Ascends.trans {a b c : Scalar} (h : Ascends a b) (h' : Ascends b c) : Ascends a c := by
  rw [ascends_iff] at *
  rcases h with ⟨s, t, rfl, rfl, hst⟩ | ⟨m, n, ha, hb, hmn⟩ <;>
    rcases h' with ⟨t', u, hb', rfl, htu⟩ | ⟨n', k, hb', hc, hnk⟩
  · cases hb'
    exact .inl ⟨s, u, rfl, rfl, String.le_trans hst htu⟩
  · cases hb'
  · rw [hb'] at hb
    cases hb
  · obtain rfl : n = n' := Option.some.inj (hb.symm.trans hb')
    refine .inr ⟨m, k, ha, hc, ?_⟩
    -- all three are counted in the least of their powers of ten
    let e := min m.exponent (min n.exponent k.exponent)
    have hm : e ≤ m.exponent := Int.min_le_left _ _
    have hn : e ≤ n.exponent := Int.le_trans (Int.min_le_right _ _) (Int.min_le_left _ _)
    have hk : e ≤ k.exponent := Int.le_trans (Int.min_le_right _ _) (Int.min_le_right _ _)
    rw [Decimal.less_eq_false_iff hn hm] at hmn
    rw [Decimal.less_eq_false_iff hk hn] at hnk
    rw [Decimal.less_eq_false_iff hk hm]
    exact Int.le_trans hmn hnk

theorem ascends_total {a b : Scalar} (h : a.ordered b = true) : Ascends a b ∨ Ascends b a := by
  rw [ascends_iff, ascends_iff]
  rcases ordered_iff.mp h with ⟨s, t, rfl, rfl⟩ | ⟨m, n, ha, hb⟩
  · rcases String.le_total s t with hst | hts
    · exact .inl (.inl ⟨s, t, rfl, rfl, hst⟩)
    · exact .inr (.inl ⟨t, s, rfl, rfl, hts⟩)
  · have hm : min m.exponent n.exponent ≤ m.exponent := Int.min_le_left _ _
    have hn : min m.exponent n.exponent ≤ n.exponent := Int.min_le_right _ _
    rcases Int.le_total (m.scaled (min m.exponent n.exponent))
        (n.scaled (min m.exponent n.exponent)) with hmn | hnm
    · exact .inl (.inr ⟨m, n, ha, hb, (Decimal.less_eq_false_iff hn hm).mpr hmn⟩)
    · exact .inr (.inr ⟨n, m, hb, ha, (Decimal.less_eq_false_iff hm hn).mpr hnm⟩)

/-- Scalars that can all be compared are sorted in ascending order. -/
theorem pairwise_ascends_mergeSort {ss : List Scalar}
    (h : ∀ a ∈ ss, ∀ b ∈ ss, a.ordered b = true) :
    (ss.mergeSort (fun a b => !(b.less? a).getD false)).Pairwise Ascends := by
  have hle : ∀ a ∈ ss, ∀ b ∈ ss, (!(b.less? a).getD false) = true ↔ Ascends a b := by
    intro a ha b hb
    obtain ⟨x, hx⟩ := Option.isSome_iff_exists.mp (h b hb a ha)
    simp [Ascends, hx]
  have hsorted : (ss.mergeSort fun a b => !(b.less? a).getD false).Pairwise
      fun a b => (!(b.less? a).getD false) = true := by
    apply pairwise_mergeSort_of_mem
    · intro a ha b hb c hc hab hbc
      exact (hle a ha c hc).mpr (((hle a ha b hb).mp hab).trans ((hle b hb c hc).mp hbc))
    · intro a ha b hb
      rw [Bool.or_eq_true]
      exact (ascends_total (h a ha b hb)).imp (hle a ha b hb).mpr (hle b hb a ha).mpr
  refine hsorted.imp_of_mem fun {a b} ha hb hab => (hle a ?_ b ?_).mp hab
  · exact List.mem_mergeSort.mp ha
  · exact List.mem_mergeSort.mp hb

/-- The members of a set are written as what they count as when they are sorted, in ascending
order. -/
theorem pairwise_of_sorted {ss out : List Scalar} (h : sorted ss = .ok out) :
    out.Perm (ss.map plain) ∧ out.Pairwise Ascends := by
  rcases e : firstUnordered? (ss.map plain) with - | u
  · simp only [sorted, e, Except.ok.injEq] at h
    subst h
    refine ⟨List.mergeSort_perm _ _, ?_⟩
    rcases firstUnordered?_eq_none_iff.mp e with hone | htextual | hnumber
    · -- one member at most
      rcases ss with - | ⟨s, - | ⟨t, ss⟩⟩
      · simp
      · simp
      · simp at hone
    · refine pairwise_ascends_mergeSort (List.forall_mem_map.mpr fun a ha =>
        List.forall_mem_map.mpr fun b hb => ?_)
      exact ordered_plain_iff.mpr (.inl ⟨htextual a ha, htextual b hb⟩)
    · refine pairwise_ascends_mergeSort (List.forall_mem_map.mpr fun a ha =>
        List.forall_mem_map.mpr fun b hb => ?_)
      exact ordered_plain_iff.mpr (.inr ⟨hnumber a ha, hnumber b hb⟩)
  · simp [sorted, e] at h

end Scalar

/-! ### What values are written as -/

namespace Value

mutual

/-- The JSON value that a value is written as.  A scalar is written as itself and a word as its
code, a list as an array, and a set as an array in ascending order.  A map is written as an object:
its names are the texts of the keys. -/
def Depicts : Value → Json → Prop
  | .scalar s, j => j = s.toJson
  | .list items, j => ∃ js, j = .arr js ∧ ItemsDepict items js
  | .set members, j => ∃ out : List Scalar, j = .arr (out.map Scalar.toJson) ∧
      out.Perm (members.map Scalar.plain) ∧ out.Pairwise Scalar.Ascends
  | .map entries, j => ∃ ms, j = .obj ms ∧ (Assoc.keys ms).Nodup ∧
      (∀ name, name ∈ Assoc.keys ms ↔ ∃ e ∈ entries, e.1.render = name) ∧ EntriesDepict entries ms

/-- Values and what they are written as, one by one. -/
def ItemsDepict : List Value → List Json → Prop
  | [], [] => True
  | v :: vs, j :: js => Depicts v j ∧ ItemsDepict vs js
  | _, _ => False

/-- The value of an entry stands under the text of its key, unless a later entry has this text. -/
def EntriesDepict : List (Scalar × Value) → List (String × Json) → Prop
  | [], _ => True
  | (key, v) :: es, ms =>
    ((∀ e ∈ es, e.1.render ≠ key.render) →
      ∃ j, Assoc.find? (· == ·) key.render ms = some j ∧ Depicts v j) ∧ EntriesDepict es ms

end

mutual

/-- What a value is written as depicts it. -/
theorem depicts_of_toJson (v : Value) (j : Json) (h : v.toJson = .ok j) : Depicts v j := by
  match v with
  | .scalar s => exact eq_of_toJson_scalar h
  | .list items =>
    obtain ⟨js, rfl, hjs⟩ := forall₂_of_toJson_list h
    exact ⟨js, rfl, itemsDepict_of_mapM items js hjs⟩
  | .set members =>
    rw [toJson, map_eq_ok_iff] at h
    obtain ⟨out, hout, rfl⟩ := h
    exact ⟨out, rfl, Scalar.pairwise_of_sorted hout⟩
  | .map entries =>
    obtain ⟨js, hjs, rfl⟩ := toJson_map_eq_ok_iff.mp h
    refine ⟨_, rfl, Assoc.nodup_keys_ofList js, fun name => ?_, ?_⟩
    · rw [Assoc.ofList, Assoc.mem_keys_insertAll, hjs.keys_eq, List.mem_map]
      simp
    · exact entriesDepict_of_membersOf entries js [] hjs

theorem itemsDepict_of_mapM (vs : List Value) (js : List Json) (h : vs.mapM toJson = .ok js) :
    ItemsDepict vs js := by
  match vs with
  | [] =>
    cases h
    exact trivial
  | v :: vs =>
    rw [List.mapM_cons] at h
    obtain ⟨j, hj, h⟩ := bind_eq_ok_iff.mp h
    obtain ⟨js, hjs, h⟩ := bind_eq_ok_iff.mp h
    cases h
    exact ⟨depicts_of_toJson v j hj, itemsDepict_of_mapM vs js hjs⟩

theorem entriesDepict_of_membersOf (es : List (Scalar × Value)) (js done : List (String × Json))
    (h : MembersOf es js) : EntriesDepict es (Assoc.insertAll (· == ·) js done) := by
  match es, js with
  | [], _ => exact trivial
  | (key, v) :: es, [] => cases h
  | (key, v) :: es, (name, j) :: js =>
    obtain ⟨⟨hname, hj⟩, hjs⟩ := List.forall₂_cons.mp h
    obtain rfl : name = key.render := hname
    refine ⟨fun hlater => ⟨j, ?_, depicts_of_toJson v j hj⟩, ?_⟩
    · have hnew : key.render ∉ Assoc.keys js := by
        rw [MembersOf.keys_eq hjs]
        simpa using hlater
      exact Assoc.find?_insertAll_cons (e := (key.render, j)) hnew done
    · exact entriesDepict_of_membersOf es js _ hjs

end

end Value

end CodeOutline
