/-
CodeOutline/Proofs/Metadata/Equality.lean

Equality of values.

Numbers are compared by what they are worth, so equality of scalars is no identity, but it is an
equivalence (`Scalar.same_trans`).  Sets and maps are compared regardless of order: a set or map is
equal to another one of the same size if each of its parts has an equal one there.

This is an equivalence as long as no set holds equal members and no map equal keys, at any depth
(`Value.Proper`), which is so for all values that are made of members and entries one by one
(`Argument.proper_toValue`).  The parts of two equal maps can then be matched
(`Value.exists_matching`).
-/
import CodeOutline.Entity.Argument
import CodeOutline.Proofs.Metadata.Lookup
import CodeOutline.Proofs.Outcome

namespace CodeOutline

open Outcome

/-! ### Numbers -/

namespace Decimal

/-- A lower power of ten multiplies what is counted in it. -/
theorem scaled_of_le {d : Decimal} {e e' : Int} (h : e' ≤ e) (h' : e ≤ d.exponent) :
    d.scaled e' = d.scaled e * (Nat.pow 10 (e - e').toNat : Nat) := by
  have hpow : Nat.pow 10 (d.exponent - e').toNat
      = Nat.pow 10 (d.exponent - e).toNat * Nat.pow 10 (e - e').toNat := by
    rw [show (d.exponent - e').toNat = (d.exponent - e).toNat + (e - e').toNat by omega]
    exact Nat.pow_add 10 _ _
  simp only [scaled, hpow, ← Nat.mul_assoc, Int.natCast_mul]
  split
  · rw [Int.neg_mul]
  · rfl

/-- Two decimals are one number if they are the same multiple of some power of ten. -/
theorem same_iff_scaled_eq {a b : Decimal} {e : Int} (ha : e ≤ a.exponent) (hb : e ≤ b.exponent) :
    a.same b = true ↔ a.scaled e = b.scaled e := by
  have hle : e ≤ min a.exponent b.exponent := Int.le_min.mpr ⟨ha, hb⟩
  have hpow : ((Nat.pow 10 (min a.exponent b.exponent - e).toNat : Nat) : Int) ≠ 0 :=
    Int.natCast_ne_zero.mpr (Nat.pos_iff_ne_zero.mp (Nat.pow_pos (by decide)))
  rw [scaled_of_le hle (Int.min_le_left _ _), scaled_of_le hle (Int.min_le_right _ _),
    Int.mul_eq_mul_right_iff hpow]
  simp [same]

theorem same_trans {a b c : Decimal} (h : a.same b = true) (h' : b.same c = true) :
    a.same c = true := by
  -- all three are counted in the least of their powers of ten
  let e := min a.exponent (min b.exponent c.exponent)
  have ha : e ≤ a.exponent := Int.min_le_left _ _
  have hb : e ≤ b.exponent := Int.le_trans (Int.min_le_right _ _) (Int.min_le_left _ _)
  have hc : e ≤ c.exponent := Int.le_trans (Int.min_le_right _ _) (Int.min_le_right _ _)
  rw [same_iff_scaled_eq ha hb] at h
  rw [same_iff_scaled_eq hb hc] at h'
  rw [same_iff_scaled_eq ha hc, h, h']

end Decimal

/-! ### Scalars -/

namespace Scalar

theorem same_symm {a b : Scalar} (h : a.same b = true) : b.same a = true := same_comm a b ▸ h

theorem alike_trans {a b c : Scalar} (h : a.alike b = true) (h' : b.alike c = true) :
    a.alike c = true := by
  cases a <;> cases b <;> cases c <;> simp_all [alike, Token.same]

theorem same_trans {a b c : Scalar} (h : a.same b = true) (h' : b.same c = true) :
    a.same c = true := by
  -- a scalar that counts as a number is equal to such scalars only
  rcases ha : a.number? with - | m <;> rcases hb : b.number? with - | n <;>
    rcases hc : c.number? with - | k <;>
    simp only [same, ha, hb, hc, Bool.false_eq_true] at h h' ⊢
  · exact alike_trans h h'
  · exact Decimal.same_trans h h'

/-- Texts are equal to themselves only. -/
theorem same_text_iff {s t : String} : (text s).same (text t) = true ↔ s = t := by
  simp [same, number?, alike]

end Scalar

/-! ### Matching the parts of two lists -/

/-- If each item of a list has a partner in another one of the same length, and no two have the same
partner, the other list can be put in the order of the partners. -/
theorem exists_perm_forall₂ {α β : Type} {R : α → β → Prop} {as : List α} {bs : List β}
    (hlength : as.length = bs.length)
    (hinj : as.Pairwise (fun a a' => ∀ b, R a b → ¬ R a' b))
    (h : ∀ a ∈ as, ∃ b ∈ bs, R a b) :
    ∃ cs : List β, cs.Perm bs ∧ List.Forall₂ R as cs := by
  induction as generalizing bs with
  | nil => exact ⟨[], by rw [List.length_eq_zero_iff.mp hlength.symm], .nil⟩
  | cons a as ih =>
    obtain ⟨hfirst, hrest⟩ := List.pairwise_cons.mp hinj
    obtain ⟨b, hb, hab⟩ := h a List.mem_cons_self
    obtain ⟨before, after, rfl⟩ := List.mem_iff_append.mp hb
    -- the partners of the other items are among the other parts
    have hothers : ∀ a' ∈ as, ∃ b' ∈ before ++ after, R a' b' := by
      intro a' ha'
      obtain ⟨b', hb', hab'⟩ := h a' (List.mem_cons_of_mem _ ha')
      have hne : b' ≠ b := by
        rintro rfl
        exact hfirst a' ha' b' hab hab'
      have hb' : b' = b ∨ b' ∈ before ++ after := by
        simpa [or_left_comm] using hb'
      exact ⟨b', hb'.resolve_left hne, hab'⟩
    have hlength : as.length = (before ++ after).length := by
      simp only [List.length_cons, List.length_append] at hlength ⊢
      omega
    obtain ⟨cs, hperm, hcs⟩ := ih hlength hrest hothers
    exact ⟨b :: cs, (hperm.cons b).trans List.perm_middle.symm, .cons hab hcs⟩

/-! ### Values without repetitions -/

/-- No two scalars are equal. -/
def Scalar.Distinct (ss : List Scalar) : Prop := ss.Pairwise (fun a b => a.same b = false)

namespace Value

/-- The sets inside a value hold no equal members, and the maps inside it no equal keys. -/
inductive Proper : Value → Prop
  | scalar (s : Scalar) : Proper (.scalar s)
  | list {items : List Value} : (∀ v ∈ items, Proper v) → Proper (.list items)
  | set {members : List Scalar} : Scalar.Distinct members → Proper (.set members)
  | map {entries : List (Scalar × Value)} : Scalar.Distinct (Assoc.keys entries) →
      (∀ e ∈ entries, Proper e.2) → Proper (.map entries)

/-! ### Equality, part by part -/

theorem same_list_iff {as bs : List Value} :
    (list as).same (list bs) = true ↔ List.Forall₂ (fun a b => a.same b = true) as bs := by
  rw [same]
  induction as generalizing bs with
  | nil => cases bs <;> simp [sameItems]
  | cons a as ih => cases bs <;> simp [sameItems, ih]

theorem sameMembers_iff {as bs : List Scalar} :
    sameMembers as bs = true ↔
      as.length = bs.length ∧ ∀ a ∈ as, ∃ b ∈ bs, a.same b = true := by
  simp [sameMembers]

/-- The members of two equal sets can be matched. -/
theorem exists_matching_members {as bs : List Scalar} (has : Scalar.Distinct as)
    (h : sameMembers as bs = true) :
    ∃ cs : List Scalar, cs.Perm bs ∧ List.Forall₂ (fun a c => a.same c = true) as cs := by
  obtain ⟨hlength, hpartners⟩ := sameMembers_iff.mp h
  refine exists_perm_forall₂ hlength (has.imp fun hne b hab ha'b => ?_) hpartners
  rw [Scalar.same_trans hab (Scalar.same_symm ha'b)] at hne
  cases hne

theorem sameMembers_symm {as bs : List Scalar} (has : Scalar.Distinct as)
    (h : sameMembers as bs = true) : sameMembers bs as = true := by
  obtain ⟨cs, hperm, hcs⟩ := exists_matching_members has h
  refine sameMembers_iff.mpr ⟨(sameMembers_iff.mp h).1.symm, fun b hb => ?_⟩
  obtain ⟨a, ha, hab⟩ := exists_of_forall₂_of_mem hcs (hperm.mem_iff.mpr hb)
  exact ⟨a, ha, Scalar.same_symm hab⟩

theorem exists_mem_of_find? {k : Scalar} {v : Value} {es : List (Scalar × Value)}
    (h : Assoc.find? Scalar.same k es = some v) : ∃ e ∈ es, k.same e.1 = true ∧ e.2 = v := by
  induction es with
  | nil => cases h
  | cons e es ih =>
    rw [Assoc.find?] at h
    split at h
    · next hk => exact ⟨e, List.mem_cons_self, Scalar.same_symm hk, Option.some.inj h⟩
    · obtain ⟨e', he', h'⟩ := ih h
      exact ⟨e', List.mem_cons_of_mem _ he', h'⟩

/-- Among distinct keys the one that is looked for is found. -/
theorem find?_eq_some {k : Scalar} {e : Scalar × Value} {es : List (Scalar × Value)}
    (hes : Scalar.Distinct (Assoc.keys es)) (he : e ∈ es) (hk : k.same e.1 = true) :
    Assoc.find? Scalar.same k es = some e.2 := by
  induction es with
  | nil => cases he
  | cons d es ih =>
    obtain ⟨hd, hrest⟩ := List.pairwise_cons.mp hes
    rw [Assoc.find?]
    rcases List.mem_cons.mp he with rfl | he
    · rw [if_pos (Scalar.same_symm hk)]
    · -- the first key is another one
      have hne : d.1.same e.1 = false := hd e.1 (List.mem_map_of_mem he)
      rw [if_neg, ih hrest he]
      intro hdk
      rw [Scalar.same_trans hdk hk] at hne
      cases hne

/-- Two entries are equal. -/
def SameEntry (e f : Scalar × Value) : Prop := e.1.same f.1 = true ∧ e.2.same f.2 = true

theorem sameEntries_iff {es fs : List (Scalar × Value)} (hfs : Scalar.Distinct (Assoc.keys fs)) :
    sameEntries es fs = true ↔ ∀ e ∈ es, ∃ f ∈ fs, SameEntry e f := by
  induction es with
  | nil => simp [sameEntries]
  | cons e es ih =>
    rw [sameEntries, Bool.and_eq_true, ih, List.forall_mem_cons]
    refine and_congr_left' ?_
    constructor
    · intro h
      split at h
      · next w hw =>
        obtain ⟨f, hf, hk, rfl⟩ := exists_mem_of_find? hw
        exact ⟨f, hf, hk, h⟩
      · cases h
    · rintro ⟨f, hf, hk, hv⟩
      rw [find?_eq_some hfs hf hk]
      exact hv

theorem same_map_iff {es fs : List (Scalar × Value)} (hfs : Scalar.Distinct (Assoc.keys fs)) :
    (map es).same (map fs) = true ↔
      es.length = fs.length ∧ ∀ e ∈ es, ∃ f ∈ fs, SameEntry e f := by
  rw [same, Bool.and_eq_true, beq_iff_eq, sameEntries_iff hfs]

/-- The entries of two equal maps can be matched. -/
theorem exists_matching {es fs : List (Scalar × Value)} (hes : Scalar.Distinct (Assoc.keys es))
    (hfs : Scalar.Distinct (Assoc.keys fs)) (h : (map es).same (map fs) = true) :
    ∃ gs : List (Scalar × Value), gs.Perm fs ∧ List.Forall₂ SameEntry es gs := by
  obtain ⟨hlength, hpartners⟩ := (same_map_iff hfs).mp h
  refine exists_perm_forall₂ hlength ?_ hpartners
  refine (List.pairwise_map.mp hes).imp fun hne f hf hf' => ?_
  rw [Scalar.same_trans hf.1 (Scalar.same_symm hf'.1)] at hne
  cases hne

/-- Entries of equal maps whose keys are equal are equal. -/
theorem same_of_same_map {es fs : List (Scalar × Value)}
    (hfs : Scalar.Distinct (Assoc.keys fs)) (h : (map es).same (map fs) = true)
    {e f : Scalar × Value} (he : e ∈ es) (hf : f ∈ fs) (hk : e.1.same f.1 = true) :
    e.2.same f.2 = true := by
  obtain ⟨g, hg, hkg, hv⟩ := ((same_map_iff hfs).mp h).2 e he
  -- there is but one entry with this key
  have hfind := find?_eq_some hfs hf hk
  rw [find?_eq_some hfs hg hkg] at hfind
  rwa [← Option.some.inj hfind]

/-! ### Equality is an equivalence -/

theorem Proper.same_refl {v : Value} (h : v.Proper) : v.same v = true := by
  induction h with
  | scalar s =>
    rw [same_scalar]
    exact s.same_refl
  | list _ ih => exact same_list_iff.mpr (List.forall₂_same.mpr ih)
  | @set members _ =>
    rw [same_set]
    exact sameMembers_iff.mpr ⟨rfl, fun s hs => ⟨s, hs, s.same_refl⟩⟩
  | map hkeys _ ih =>
    exact (same_map_iff hkeys).mpr ⟨rfl, fun e he => ⟨e, he, e.1.same_refl, ih e he⟩⟩

theorem Proper.same_symm {v w : Value} (hv : v.Proper) (hw : w.Proper) (h : v.same w = true) :
    w.same v = true := by
  -- a value is equal to values of its own shape only
  induction hv generalizing w with
  | scalar s =>
    cases hw with
    | scalar s' =>
      rw [same_scalar] at h ⊢
      exact Scalar.same_symm h
    | _ => simp [same] at h
  | list _ ih =>
    cases hw with
    | list hitems =>
      rw [same_list_iff] at h ⊢
      refine List.Forall₂.flip ?_
      refine (List.forall₂_iff_get.mpr ?_)
      obtain ⟨hlength, hget⟩ := List.forall₂_iff_get.mp h
      exact ⟨hlength, fun i h₁ h₂ =>
        ih _ (List.get_mem ..) (hitems _ (List.get_mem ..)) (hget i h₁ h₂)⟩
    | _ => simp [same] at h
  | set hmembers =>
    cases hw with
    | set _ =>
      rw [same_set] at h ⊢
      exact sameMembers_symm hmembers h
    | _ => simp [same] at h
  | map hkeys _ ih =>
    cases hw with
    | map hkeys' hentries =>
      obtain ⟨gs, hperm, hgs⟩ := exists_matching hkeys hkeys' h
      refine (same_map_iff hkeys).mpr ⟨((same_map_iff hkeys').mp h).1.symm, fun f hf => ?_⟩
      obtain ⟨e, he, hk, hv⟩ := exists_of_forall₂_of_mem hgs (hperm.mem_iff.mpr hf)
      exact ⟨e, he, Scalar.same_symm hk, ih e he (hentries f hf) hv⟩
    | _ => simp [same] at h

theorem Proper.same_trans {u v w : Value} (hu : u.Proper) (hv : v.Proper) (hw : w.Proper)
    (h : u.same v = true) (h' : v.same w = true) : u.same w = true := by
  induction hu generalizing v w with
  | scalar s =>
    cases hv with
    | scalar s' =>
      cases hw with
      | scalar s'' =>
        rw [same_scalar] at *
        exact Scalar.same_trans h h'
      | _ => simp [same] at h'
    | _ => simp [same] at h
  | list _ ih =>
    cases hv with
    | list hitems =>
      cases hw with
      | list hitems' =>
        rw [same_list_iff] at *
        obtain ⟨hlength, hget⟩ := List.forall₂_iff_get.mp h
        obtain ⟨hlength', hget'⟩ := List.forall₂_iff_get.mp h'
        refine List.forall₂_iff_get.mpr ⟨hlength.trans hlength', fun i h₁ h₂ => ?_⟩
        exact ih _ (List.get_mem ..) (hitems _ (List.get_mem ..)) (hitems' _ (List.get_mem ..))
          (hget i h₁ (hlength ▸ h₁)) (hget' i (hlength ▸ h₁) h₂)
      | _ => simp [same] at h'
    | _ => simp [same] at h
  | set _ =>
    cases hv with
    | set _ =>
      cases hw with
      | set _ =>
        rw [same_set, sameMembers_iff] at *
        refine ⟨h.1.trans h'.1, fun a ha => ?_⟩
        obtain ⟨b, hb, hab⟩ := h.2 a ha
        obtain ⟨c, hc, hbc⟩ := h'.2 b hb
        exact ⟨c, hc, Scalar.same_trans hab hbc⟩
      | _ => simp [same] at h'
    | _ => simp [same] at h
  | map _ _ ih =>
    cases hv with
    | map hkeys hentries =>
      cases hw with
      | map hkeys' hentries' =>
        rw [same_map_iff hkeys] at h
        rw [same_map_iff hkeys'] at *
        refine ⟨h.1.trans h'.1, fun e he => ?_⟩
        obtain ⟨f, hf, hk, hv⟩ := h.2 e he
        obtain ⟨g, hg, hk', hv'⟩ := h'.2 f hf
        exact ⟨g, hg, Scalar.same_trans hk hk',
          ih e he (hentries f hf) (hentries' g hg) hv hv'⟩
      | _ => simp [same] at h'
    | _ => simp [same] at h

end Value

/-! ### Values that are made of members and entries -/

/-- What is kept of some items when those are left out that agree with one that is kept already. -/
def keepNew {α : Type} (agrees : α → α → Bool) (kept items : List α) : List α :=
  items.foldl (fun kept a => if kept.any (fun k => agrees k a) then kept else kept ++ [a]) kept

theorem keepNew_cons {α : Type} (agrees : α → α → Bool) (kept : List α) (a : α) (items : List α) :
    keepNew agrees kept (a :: items) =
      keepNew agrees (if kept.any (fun k => agrees k a) then kept else kept ++ [a]) items := rfl

/-- No item that is kept agrees with an earlier one. -/
theorem pairwise_keepNew {α : Type} {agrees : α → α → Bool} {kept : List α} (items : List α)
    (h : kept.Pairwise (fun a b => agrees a b = false)) :
    (keepNew agrees kept items).Pairwise (fun a b => agrees a b = false) := by
  induction items generalizing kept with
  | nil => exact h
  | cons a items ih =>
    rw [keepNew_cons]
    split
    · exact ih h
    · next hnew =>
      refine ih (List.pairwise_append.mpr ⟨h, List.pairwise_singleton _ _, fun k hk b hb => ?_⟩)
      rw [List.mem_singleton.mp hb]
      by_contra hagrees
      exact hnew (List.any_eq_true.mpr ⟨k, hk, by simpa using hagrees⟩)

/-- What is kept was kept already or is one of the items. -/
theorem mem_or_mem_of_mem_keepNew {α : Type} {agrees : α → α → Bool} {kept items : List α} {a : α}
    (h : a ∈ keepNew agrees kept items) : a ∈ kept ∨ a ∈ items := by
  induction items generalizing kept with
  | nil => exact .inl h
  | cons b items ih =>
    rw [keepNew_cons] at h
    split at h
    · exact (ih h).imp_right (List.mem_cons_of_mem b)
    · simpa [or_assoc] using ih h

/-- What agrees with something that was kept already, and every item, agrees with something that is
kept. -/
theorem exists_mem_keepNew {α : Type} {agrees : α → α → Bool} {kept items : List α} {a : α}
    (hself : ∀ b ∈ items, agrees b b = true)
    (h : (∃ k ∈ kept, agrees k a = true) ∨ a ∈ items) :
    ∃ k ∈ keepNew agrees kept items, agrees k a = true := by
  induction items generalizing kept with
  | nil => exact h.resolve_right List.not_mem_nil
  | cons b items ih =>
    rw [keepNew_cons]
    refine ih (fun b hb => hself b (List.mem_cons_of_mem _ hb)) ?_
    rcases h with ⟨k, hk, hka⟩ | h
    · refine .inl ⟨k, ?_, hka⟩
      split
      · exact hk
      · exact List.mem_append_left _ hk
    · rcases List.mem_cons.mp h with rfl | h
      · left
        split
        · next hany => exact List.any_eq_true.mp hany
        · exact ⟨a, by simp, hself a List.mem_cons_self⟩
      · exact .inr h

theorem Value.proper_ofMembers (ss : List Scalar) : (Value.ofMembers ss).Proper :=
  .set (pairwise_keepNew ss .nil)

section Entries

variable {κ α : Type} {same : κ → κ → Bool}

theorem Assoc.keys_insert_eq_ite (k : κ) (v : α) (es : List (κ × α)) :
    keys (insert same k v es)
      = if (keys es).any (fun k' => same k' k) then keys es else keys es ++ [k] := by
  induction es with
  | nil => rfl
  | cons e es ih =>
    rw [insert, keys_cons, List.any_cons]
    split
    · next h => rw [h, Bool.true_or, if_pos rfl, keys_cons]
    · next h =>
      rw [Bool.eq_false_iff.mpr h, Bool.false_or, keys_cons, ih]
      split <;> rfl

/-- Of two equal keys that are written only one is kept. -/
theorem Assoc.keys_insertAll (new es : List (κ × α)) :
    keys (insertAll same new es) = keepNew same (keys es) (keys new) := by
  induction new generalizing es with
  | nil => rfl
  | cons e new ih =>
    rw [keys_cons, keepNew_cons, ← keys_insert_eq_ite e.1 e.2 es]
    exact ih (insert same e.1 e.2 es)

end Entries

theorem Value.proper_ofEntries {es : List (Scalar × Value)} (h : ∀ e ∈ es, e.2.Proper) :
    (Value.ofEntries es).Proper := by
  refine .map ?_ (Assoc.forall_mem_insertAll h (by simp))
  rw [Scalar.Distinct, Assoc.ofList, Assoc.keys_insertAll]
  exact pairwise_keepNew _ .nil

mutual

/-- An argument as a value has no repetitions. -/
theorem Argument.proper_toValue (a : Argument) : a.toValue.Proper := by
  match a with
  | .scalar s => exact .scalar s
  | .entity e number => exact .scalar _
  | .draft t number => exact .scalar _
  | .list items => exact .list (Argument.forall_proper_toValues items)
  | .set members => exact Value.proper_ofMembers _
  | .map entries => exact Value.proper_ofEntries (Argument.forall_proper_toEntries entries)

theorem Argument.forall_proper_toValues (as : List Argument) :
    ∀ v ∈ Argument.toValues as, v.Proper := by
  match as with
  | [] => simp [Argument.toValues]
  | a :: as =>
    rw [Argument.toValues, List.forall_mem_cons]
    exact ⟨Argument.proper_toValue a, Argument.forall_proper_toValues as⟩

theorem Argument.forall_proper_toEntries (es : List (Argument × Argument)) :
    ∀ e ∈ Argument.toEntries es, e.2.Proper := by
  match es with
  | [] => simp [Argument.toEntries]
  | (k, a) :: es =>
    rw [Argument.toEntries]
    split
    · exact List.forall_mem_cons.mpr
        ⟨Argument.proper_toValue a, Argument.forall_proper_toEntries es⟩
    · exact Argument.forall_proper_toEntries es

end

/-! ### Metadata -/

namespace Metadata

/-- Metadata without equal keys, and without repetitions in its values. -/
def Proper (m : Metadata) : Prop := (Value.map m.toEntries).Proper

/-- Metadata that is made of entries has no repetitions. -/
theorem proper_ofEntries {es : List (Scalar × Value)} (h : ∀ e ∈ es, e.2.Proper) :
    (ofEntries es).Proper := by
  have htexts : ∀ {a b : String}, ((a == b) = false) → (Scalar.text a).same (.text b) = false := by
    intro a b hab
    simpa [Bool.eq_false_iff, Scalar.same_text_iff] using hab
  refine .map ?_ ?_
  · rw [Scalar.Distinct, toEntries, Assoc.keys, List.map_map]
    have hkeys : (Assoc.keys (ofEntries es)).Pairwise (fun a b => (a == b) = false) := by
      rw [ofEntries, Assoc.ofList, Assoc.keys_insertAll]
      exact pairwise_keepNew _ .nil
    rw [Assoc.keys, List.pairwise_map] at hkeys
    rw [List.pairwise_map]
    exact hkeys.imp htexts
  · rw [toEntries, List.forall_mem_map]
    refine Assoc.forall_mem_insertAll ?_ (by simp)
    rw [List.forall_mem_map]
    exact h

/-- So whatever is given as metadata has none. -/
theorem proper_ofArguments (es : List (Argument × Argument)) :
    (ofEntries (Argument.toEntries es)).Proper :=
  proper_ofEntries (Argument.forall_proper_toEntries es)

end Metadata

end CodeOutline
