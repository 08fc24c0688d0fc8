/-
CodeOutline/Proofs/Metadata/Hashing.lean

Keys of equal values.

A collection without repetitions finds a value by its key, so two equal values are one there only
if their keys agree.  The key of a map lists its entries by the text of their keys, and two maps
that are equal need not be listed alike: `1` and `true` are one key, but the one text stands before
`"A"` and the other one behind it.

The main statement is that nothing else can go wrong (`Value.Proper.key_same_iff`): the keys of two
equal values agree if and only if any two maps that stand at one place of them are listed alike.
For this it is enough that the keys of such maps are equal when, and only when, they have one text
(`Value.Proper.listedAlike_of_textsTell`); so it is for maps with text keys.
-/
import CodeOutline.Proofs.Metadata.Equality

namespace CodeOutline

namespace Key

theorem same_row_iff {as bs : List Key} :
    (row as).same (row bs) = true ↔ List.Forall₂ (fun a b => a.same b = true) as bs := by
  rw [same]
  induction as generalizing bs with
  | nil => cases bs <;> simp [sameItems]
  | cons a as ih => cases bs <;> simp [sameItems, ih]

end Key

namespace Value

open Outcome

variable {a b : Value} {es fs : List (Scalar × Value)}

/-! ### How a key lists the entries of a map -/

/-- Entries in the order of the text of their keys. -/
def listed (es : List (Scalar × Value)) : List (Scalar × Value) :=
  es.mergeSort (fun a b => !decide (b.1.render < a.1.render))

theorem mem_listed {e : Scalar × Value} : e ∈ listed es ↔ e ∈ es := List.mem_mergeSort

theorem listed_singleton (e : Scalar × Value) : listed [e] = [e] := List.mergeSort_singleton e

theorem listed_pair (e f : Scalar × Value) :
    listed [e, f] = if f.1.render < e.1.render then [f, e] else [e, f] := by
  rw [listed, List.mergeSort]
  simp only [List.MergeSort.Internal.splitInTwo, List.splitAt_eq, List.length_cons,
    List.length_nil, Nat.reduceAdd, Nat.reduceDiv, List.take_succ_cons, List.take_zero,
    List.drop_succ_cons, List.drop_zero, List.mergeSort_singleton, List.cons_merge_cons,
    List.nil_merge, List.merge_right]
  by_cases h : f.1.render < e.1.render
  · rw [decide_eq_true h, if_pos h]
    rfl
  · rw [decide_eq_false h, if_neg h]
    rfl

theorem itemKeys_eq_map (vs : List Value) : itemKeys vs = vs.map key := by
  induction vs with
  | nil => rfl
  | cons v vs ih => rw [itemKeys, ih, List.map_cons]

theorem entryKeys_eq_map (es : List (Scalar × Value)) :
    entryKeys es = es.map (fun e => (e.1, e.2.key)) := by
  induction es with
  | nil => rfl
  | cons e es ih => rw [entryKeys, ih, List.map_cons]

/-- The key of a map has a row for each entry. -/
theorem key_map (es : List (Scalar × Value)) :
    (map es).key = .row ((listed es).map (fun e => .row [.scalar e.1, e.2.key])) := by
  rw [key, Key.rowOfEntries, entryKeys_eq_map]
  have hsort := List.map_mergeSort (f := fun e : Scalar × Value => (e.1, e.2.key)) (l := es)
    (r := fun a b => !decide (b.1.render < a.1.render))
    (s := fun a b => !decide (b.1.render < a.1.render)) (fun _ _ _ _ => rfl)
  rw [← hsort, List.map_map]
  rfl

theorem key_same_map_iff :
    (map es).key.same (map fs).key = true ↔
      List.Forall₂ (fun e f => e.1.same f.1 = true ∧ e.2.key.same f.2.key = true)
        (listed es) (listed fs) := by
  rw [key_map, key_map, Key.same_row_iff, List.forall₂_map_left_iff, List.forall₂_map_right_iff]
  simp only [Key.same, Key.sameItems, Bool.and_true, Bool.and_eq_true]

/-! ### Maps at one place -/

/-- The entries of two maps that stand at one place of two values: the values themselves, or inside
two items with one number or inside the values of two entries with equal keys. -/
inductive Corresponding :
    Value → Value → List (Scalar × Value) → List (Scalar × Value) → Prop
  | here (es fs : List (Scalar × Value)) : Corresponding (.map es) (.map fs) es fs
  | item {as bs : List Value} {i : Nat} {a b : Value} {es fs : List (Scalar × Value)} :
      as[i]? = some a → bs[i]? = some b → Corresponding a b es fs →
      Corresponding (.list as) (.list bs) es fs
  | entry {ds gs : List (Scalar × Value)} {d g : Scalar × Value} {es fs : List (Scalar × Value)} :
      d ∈ ds → g ∈ gs → d.1.same g.1 = true → Corresponding d.2 g.2 es fs →
      Corresponding (.map ds) (.map gs) es fs

/-- Maps at one place of two values have equal keys in their entries one by one, each in the order
of the text of its keys. -/
def ListedAlike (a b : Value) : Prop :=
  ∀ es fs, Corresponding a b es fs →
    List.Forall₂ (fun e f => e.1.same f.1 = true) (listed es) (listed fs)

/-- Among the keys of two maps at one place of two values, those with one text are equal and no
others. -/
def TextsTell (a b : Value) : Prop :=
  ∀ es fs, Corresponding a b es fs →
    ∀ e ∈ es, ∀ f ∈ fs, e.1.same f.1 = true ↔ e.1.render = f.1.render

theorem listedAlike_list_iff {as bs : List Value} (hlength : as.length = bs.length) :
    ListedAlike (.list as) (.list bs) ↔ List.Forall₂ ListedAlike as bs := by
  rw [List.forall₂_iff_get]
  constructor
  · refine fun h => ⟨hlength, fun i ha hb es fs hes => h es fs (.item (i := i) ?_ ?_ hes)⟩
    · simp
    · simp
  · rintro ⟨-, h⟩ es fs (_ | @⟨_, _, i, a, b, _, _, ha, hb, hes⟩)
    obtain ⟨hia, rfl⟩ := List.getElem?_eq_some_iff.mp ha
    obtain ⟨hib, rfl⟩ := List.getElem?_eq_some_iff.mp hb
    exact h i hia hib es fs hes

/-! ### When the keys of equal values agree -/

/-- The partner of an entry in the listing is the only entry with an equal key. -/
theorem exists_listed_partner {R : Scalar × Value → Scalar × Value → Prop}
    (hfs : Scalar.Distinct (Assoc.keys fs))
    (h : List.Forall₂ (fun e f => e.1.same f.1 = true ∧ R e f) (listed es) (listed fs))
    {e f : Scalar × Value} (he : e ∈ es) (hf : f ∈ fs) (hk : e.1.same f.1 = true) :
    ∃ g, g.2 = f.2 ∧ R e g := by
  obtain ⟨g, hg, hkg, hr⟩ := exists_of_forall₂_of_mem h.flip (mem_listed.mpr he)
  refine ⟨g, ?_, hr⟩
  have hfind := find?_eq_some hfs hf hk
  rw [find?_eq_some hfs (mem_listed.mp hg) hkg] at hfind
  exact Option.some.inj hfind

/-- The keys of two equal values agree if and only if the maps inside them are listed alike. -/
theorem Proper.key_same_iff (ha : a.Proper) (hb : b.Proper) (h : a.same b = true) :
    a.key.same b.key = true ↔ ListedAlike a b := by
  -- only maps are listed, and their entries are equal in pairs
  induction ha generalizing b with
  | scalar s =>
    cases hb with
    | scalar s' =>
      rw [same] at h
      simp only [key, Key.same, h, true_iff]
      rintro _ _ ⟨⟩
    | _ => simp [same] at h
  | set _ =>
    cases hb with
    | set _ =>
      rw [same] at h
      simp only [key, Key.same, h, true_iff]
      rintro _ _ ⟨⟩
    | _ => simp [same] at h
  | @list as _ ih =>
    cases hb with
    | @list bs hitems =>
      obtain ⟨hlength, hget⟩ := List.forall₂_iff_get.mp (same_list_iff.mp h)
      rw [listedAlike_list_iff hlength, key, key, Key.same_row_iff, itemKeys_eq_map,
        itemKeys_eq_map, List.forall₂_map_left_iff, List.forall₂_map_right_iff,
        List.forall₂_iff_get, List.forall₂_iff_get]
      refine and_congr_right' (forall_congr' fun i => forall₂_congr fun hia hib => ?_)
      exact ih _ (List.get_mem ..) (hitems _ (List.get_mem ..)) (hget i hia hib)
    | _ => simp [same] at h
  | @map es hes hvalues ih =>
    cases hb with
    | @map fs hfs hvalues' =>
      rw [key_same_map_iff]
      constructor
      · intro hlisted ds gs hplace
        cases hplace with
        | here => exact hlisted.imp fun _ _ hef => hef.1
        | @entry _ _ e f _ _ he hf hk hplace =>
          obtain ⟨g, hg, hkey⟩ := exists_listed_partner hfs hlisted he hf hk
          rw [hg] at hkey
          have hsame := same_of_same_map hfs h he hf hk
          exact (ih e he (hvalues' f hf) hsame).mp hkey ds gs hplace
      · intro halike
        obtain ⟨hlength, hget⟩ := List.forall₂_iff_get.mp (halike es fs (.here es fs))
        refine List.forall₂_iff_get.mpr ⟨hlength, fun i hie hif => ?_⟩
        have he := mem_listed.mp (List.get_mem (listed es) ⟨i, hie⟩)
        have hf := mem_listed.mp (List.get_mem (listed fs) ⟨i, hif⟩)
        have hk := hget i hie hif
        refine ⟨hk, (ih _ he (hvalues' _ hf) (same_of_same_map hfs h he hf hk)).mpr ?_⟩
        exact fun ds gs hplace => halike ds gs (.entry he hf hk hplace)
    | _ => simp [same] at h

/-! ### Keys that are told apart by their text -/

/-- The texts of the keys of listed entries ascend. -/
theorem pairwise_render_listed (es : List (Scalar × Value)) :
    ((listed es).map (fun e => e.1.render)).Pairwise (· ≤ ·) := by
  have hle : ∀ a b : Scalar × Value,
      (!decide (b.1.render < a.1.render)) = true ↔ a.1.render ≤ b.1.render := by
    intro a b
    rw [Bool.not_eq_true', decide_eq_false_iff_not, String.not_lt]
  refine List.pairwise_map.mpr ((List.pairwise_mergeSort ?_ ?_ es).imp fun h => (hle _ _).mp h)
  · intro a b c hab hbc
    exact (hle a c).mpr (String.le_trans ((hle a b).mp hab) ((hle b c).mp hbc))
  · intro a b
    rw [Bool.or_eq_true, hle, hle]
    exact String.le_total a.1.render b.1.render

theorem perm_listed (es : List (Scalar × Value)) : (listed es).Perm es := List.mergeSort_perm ..

/-- Two maps are listed alike if they have the same keys and these are told apart by their text. -/
theorem forall₂_listed (hes : Scalar.Distinct (Assoc.keys es))
    (hfs : Scalar.Distinct (Assoc.keys fs)) (h : (map es).same (map fs) = true)
    (htell : ∀ e ∈ es, ∀ f ∈ fs, e.1.same f.1 = true ↔ e.1.render = f.1.render) :
    List.Forall₂ (fun e f => e.1.same f.1 = true) (listed es) (listed fs) := by
  obtain ⟨gs, hperm, hgs⟩ := exists_matching hes hfs h
  -- both maps have the same texts, and these can be in ascending order in one way only
  have hrender : es.map (fun e => e.1.render) = gs.map (fun e => e.1.render) := by
    refine List.forall₂_eq_eq_eq ▸ ?_
    rw [List.forall₂_map_left_iff, List.forall₂_map_right_iff, List.forall₂_iff_get]
    obtain ⟨hlength, hget⟩ := List.forall₂_iff_get.mp hgs
    refine ⟨hlength, fun i hie hig => ?_⟩
    exact (htell _ (List.get_mem ..) _ (hperm.mem_iff.mp (List.get_mem ..))).mp (hget i hie hig).1
  have htexts : ((listed es).map (fun e => e.1.render)).Perm
      ((listed fs).map (fun e => e.1.render)) := by
    refine ((perm_listed es).map _).trans ?_
    rw [hrender]
    exact (hperm.map _).trans ((perm_listed fs).map _).symm
  have heq := htexts.eq_of_pairwise (fun _ _ _ _ => String.le_antisymm) (pairwise_render_listed es)
    (pairwise_render_listed fs)
  obtain ⟨hlength, hget⟩ := List.forall₂_iff_get.mp
    (List.forall₂_map_right_iff.mp (List.forall₂_map_left_iff.mp
      (List.forall₂_eq_eq_eq ▸ heq : List.Forall₂ (· = ·) _ _)))
  refine List.forall₂_iff_get.mpr ⟨hlength, fun i hie hif => ?_⟩
  exact (htell _ (mem_listed.mp (List.get_mem ..)) _ (mem_listed.mp (List.get_mem ..))).mpr
    (hget i hie hif)

/-- Maps at one place of two equal values are equal, and have no repetitions. -/
theorem Corresponding.same (hplace : Corresponding a b es fs) (ha : a.Proper) (hb : b.Proper)
    (h : a.same b = true) :
    Scalar.Distinct (Assoc.keys es) ∧ Scalar.Distinct (Assoc.keys fs) ∧
      (map es).same (map fs) = true := by
  induction hplace with
  | here es fs =>
    cases ha with
    | map hes _ =>
      cases hb with
      | map hfs _ => exact ⟨hes, hfs, h⟩
  | @item as bs i a b es fs hia hib _ ih =>
    cases ha with
    | list ha =>
      cases hb with
      | list hb =>
        refine ih (ha _ (List.mem_of_getElem? hia)) (hb _ (List.mem_of_getElem? hib)) ?_
        obtain ⟨hi, rfl⟩ := List.getElem?_eq_some_iff.mp hia
        obtain ⟨hi', rfl⟩ := List.getElem?_eq_some_iff.mp hib
        exact (List.forall₂_iff_get.mp (same_list_iff.mp h)).2 i hi hi'
  | entry he hf hk _ ih =>
    cases ha with
    | map _ ha =>
      cases hb with
      | map hfs hb => exact ih (ha _ he) (hb _ hf) (same_of_same_map hfs h he hf hk)

theorem Proper.listedAlike_of_textsTell (ha : a.Proper) (hb : b.Proper) (h : a.same b = true)
    (htell : TextsTell a b) : ListedAlike a b := by
  intro es fs hplace
  obtain ⟨hes, hfs, hsame⟩ := hplace.same ha hb h
  exact forall₂_listed hes hfs hsame (htell es fs hplace)

/-! ### Values with text keys -/

/-- The maps inside a value have text keys. -/
inductive TextKeys : Value → Prop
  | scalar (s : Scalar) : TextKeys (.scalar s)
  | list {items : List Value} : (∀ v ∈ items, TextKeys v) → TextKeys (.list items)
  | set (members : List Scalar) : TextKeys (.set members)
  | map {entries : List (Scalar × Value)} : (∀ e ∈ entries, ∃ s, e.1 = .text s) →
      (∀ e ∈ entries, TextKeys e.2) → TextKeys (.map entries)

theorem Corresponding.textKeys (hplace : Corresponding a b es fs) (ha : a.TextKeys)
    (hb : b.TextKeys) : (∀ e ∈ es, ∃ s, e.1 = .text s) ∧ (∀ f ∈ fs, ∃ s, f.1 = .text s) := by
  induction hplace with
  | here =>
    cases ha with
    | map hes _ =>
      cases hb with
      | map hfs _ => exact ⟨hes, hfs⟩
  | item hia hib _ ih =>
    cases ha with
    | list ha =>
      cases hb with
      | list hb => exact ih (ha _ (List.mem_of_getElem? hia)) (hb _ (List.mem_of_getElem? hib))
  | entry he hf _ _ ih =>
    cases ha with
    | map _ ha =>
      cases hb with
      | map _ hb => exact ih (ha _ he) (hb _ hf)

/-- Text keys are told apart by their text. -/
theorem textsTell_of_textKeys (ha : a.TextKeys) (hb : b.TextKeys) : TextsTell a b := by
  intro es fs hplace e he f hf
  obtain ⟨hes, hfs⟩ := hplace.textKeys ha hb
  obtain ⟨s, hs⟩ := hes e he
  obtain ⟨t, ht⟩ := hfs f hf
  rw [hs, ht, Scalar.same_text_iff]
  rfl

end Value

/-! ### Agreement of keys is an equivalence -/

namespace Key

mutual

/-- A key as a value: a row is a list. -/
def asValue : Key → Value
  | .scalar s => .scalar s
  | .set members => .set members
  | .row items => .list (asValues items)

/-- Keys as values. -/
def asValues : List Key → List Value
  | [] => []
  | k :: ks => asValue k :: asValues ks

end

theorem asValues_eq_map (ks : List Key) : asValues ks = ks.map asValue := by
  induction ks with
  | nil => rfl
  | cons k ks ih => rw [asValues, ih, List.map_cons]

mutual

theorem same_eq (k l : Key) : k.same l = k.asValue.same l.asValue := by
  match k, l with
  | .row ks, .row ls => rw [same, asValue, asValue, Value.same, sameItems_eq ks ls]
  | .scalar _, .scalar _ | .scalar _, .set _ | .scalar _, .row _ | .set _, .scalar _
  | .set _, .set _ | .set _, .row _ | .row _, .scalar _ | .row _, .set _ =>
    simp [same, asValue, Value.same]

theorem sameItems_eq (ks ls : List Key) :
    sameItems ks ls = Value.sameItems (asValues ks) (asValues ls) := by
  match ks, ls with
  | [], [] | [], _ :: _ | _ :: _, [] => simp [sameItems, asValues, Value.sameItems]
  | k :: ks, l :: ls =>
    rw [sameItems, asValues, asValues, Value.sameItems, same_eq k l, sameItems_eq ks ls]

end

end Key

namespace Value

/-- The key of a value without repetitions has none. -/
theorem Proper.proper_key {v : Value} (h : v.Proper) : v.key.asValue.Proper := by
  induction h with
  | scalar s => exact .scalar s
  | set hmembers => exact .set hmembers
  | list _ ih =>
    rw [key, Key.asValue, Key.asValues_eq_map, itemKeys_eq_map, List.map_map]
    exact .list (List.forall_mem_map.mpr ih)
  | map _ _ ih =>
    rw [key_map, Key.asValue, Key.asValues_eq_map, List.map_map]
    refine .list (List.forall_mem_map.mpr fun e he => .list (List.forall_mem_cons.mpr ?_))
    exact ⟨.scalar e.1, by simpa [Key.asValues] using ih e (mem_listed.mp he)⟩

theorem Proper.key_same_symm {v w : Value} (hv : v.Proper) (hw : w.Proper)
    (h : v.key.same w.key = true) : w.key.same v.key = true := by
  rw [Key.same_eq] at h ⊢
  exact hv.proper_key.same_symm hw.proper_key h

theorem Proper.key_same_trans {u v w : Value} (hu : u.Proper) (hv : v.Proper) (hw : w.Proper)
    (h : u.key.same v.key = true) (h' : v.key.same w.key = true) :
    u.key.same w.key = true := by
  rw [Key.same_eq] at h h' ⊢
  exact hu.proper_key.same_trans hv.proper_key hw.proper_key h h'

end Value

end CodeOutline
