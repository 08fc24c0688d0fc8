/-
CodeOutline/Proofs/Metadata/Faithful.lean

What is written of metadata tells it.

A value is elementary if it is made of texts, integers, truth values and nothing, by lists and maps
with text keys.  No set is in it that would have to be put in order (`Value.Elementary.sets_eq_nil`).
Two values are alike if they differ in the order of keys at most, `true` and `1` being different.

`TellsApart` says of two things that what is written of them is equal exactly if they are alike.
Lists are told apart if their items are (`itemsSame_iff_of_mapM`), and elementary values always are
(`Value.Elementary.tellsApart`).
-/
import CodeOutline.Proofs.Metadata.Writing

namespace CodeOutline

open Outcome

/-! ### Elementary values -/

/-- A scalar that has a form of its own in JSON, decimal numbers apart. -/
def Scalar.Elementary : Scalar → Prop
  | .null | .bool _ | .int _ | .text _ => True
  | .decimal _ | .word _ | .token _ => False

namespace Value

/-- A value made of elementary scalars by lists and maps with text keys. -/
inductive Elementary : Value → Prop
  | scalar {s : Scalar} (h : s.Elementary) : Elementary (.scalar s)
  | list {items : List Value} (h : ∀ v ∈ items, Elementary v) : Elementary (.list items)
  | map {m : Metadata} (hkeys : (Assoc.keys m).Nodup) (h : ∀ e ∈ m, Elementary e.2) :
    Elementary (.map m.toEntries)

@[simp] theorem elementary_text (s : String) : (text s).Elementary := .scalar trivial

@[simp] theorem elementary_bool (b : Bool) : (bool b).Elementary := .scalar trivial

@[simp] theorem elementary_texts (ss : List String) : (texts ss).Elementary :=
  .list (List.forall_mem_map.mpr fun s _ => elementary_text s)

@[simp] theorem elementary_textOrNull (s : Option String) : (textOrNull s).Elementary := by
  cases s <;> exact .scalar trivial

theorem Elementary.tokenFree {v : Value} (h : v.Elementary) : v.TokenFree := by
  induction h with
  | @scalar s hs =>
    refine .scalar ?_
    rintro t rfl
    exact hs
  | list _ ih => exact .list ih
  | map _ _ ih => exact .map (List.forall_mem_map.mpr ih)

theorem Elementary.sets_eq_nil {v : Value} (h : v.Elementary) : v.sets = [] := by
  induction h with
  | scalar _ => rw [sets]
  | list _ ih => rw [sets, setsOfItems_eq, List.flatMap_eq_nil_iff.mpr ih]
  | map _ _ ih =>
    rw [sets, setsOfEntries_eq, List.flatMap_eq_nil_iff]
    exact List.forall_mem_map.mpr ih

end Value

namespace Metadata

/-- Metadata of elementary values. -/
structure Elementary (m : Metadata) : Prop where
  keys : (Assoc.keys m).Nodup
  values : ∀ e ∈ m, e.2.Elementary

theorem Elementary.tokenFree {m : Metadata} (h : m.Elementary) : m.TokenFree :=
  fun e he => (h.values e he).tokenFree

theorem Elementary.sets_eq_nil {m : Metadata} (h : m.Elementary) : m.sets = [] :=
  (Value.Elementary.map h.keys h.values).sets_eq_nil

/-- Metadata that is made of elementary entries is elementary. -/
theorem elementary_ofEntries {es : List (Scalar × Value)} (h : ∀ e ∈ es, e.2.Elementary) :
    (ofEntries es).Elementary where
  keys := Assoc.nodup_keys_insertAll _ List.nodup_nil
  values := Assoc.forall_mem_insertAll (List.forall_mem_map.mpr h) (by simp)

end Metadata

/-! ### Likeness -/

namespace Value

mutual

/-- Whether two values differ in the order of keys and members at most. -/
def Alike : Value → Value → Prop
  | .scalar a, .scalar b => a = b
  | .list as, .list bs => ItemsAlike as bs
  | .set as, .set bs => as.Perm bs
  | .map es, .map fs => es.length = fs.length ∧ EntriesAlike es fs
  | _, _ => False

/-- Whether two lists of values are alike item by item. -/
def ItemsAlike : List Value → List Value → Prop
  | [], [] => True
  | a :: as, b :: bs => Alike a b ∧ ItemsAlike as bs
  | _, _ => False

/-- Whether every entry of the first list has one with the same key in the second that is alike. -/
def EntriesAlike : List (Scalar × Value) → List (Scalar × Value) → Prop
  | [], _ => True
  | (k, v) :: es, fs => (∃ w, (k, w) ∈ fs ∧ Alike v w) ∧ EntriesAlike es fs

end

theorem itemsAlike_iff {as bs : List Value} : ItemsAlike as bs ↔ List.Forall₂ Alike as bs := by
  induction as generalizing bs with
  | nil => cases bs <;> simp [ItemsAlike]
  | cons a as ih => cases bs <;> simp [ItemsAlike, ih]

theorem entriesAlike_iff {es fs : List (Scalar × Value)} :
    EntriesAlike es fs ↔ ∀ e ∈ es, ∃ f ∈ fs, f.1 = e.1 ∧ e.2.Alike f.2 := by
  induction es with
  | nil => simp [EntriesAlike]
  | cons e es ih =>
    obtain ⟨key, v⟩ := e
    simp [EntriesAlike, ih]

end Value

/-- Whether two pieces of metadata differ in the order of keys at most. -/
def Metadata.Alike (m n : Metadata) : Prop := (Value.map m.toEntries).Alike (.map n.toEntries)

theorem Metadata.alike_iff {m n : Metadata} :
    m.Alike n ↔ m.length = n.length ∧ ∀ e ∈ m, ∃ f ∈ n, f.1 = e.1 ∧ e.2.Alike f.2 := by
  rw [Alike, Value.Alike, Value.entriesAlike_iff, toEntries, toEntries, List.length_map,
    List.length_map, List.forall_mem_map]
  simp only [List.mem_map, exists_exists_and_eq_and, Scalar.text.injEq]

/-! ### Telling apart -/

/-- What is written of two things is equal exactly if they are related. -/
def TellsApart {α : Type} (write : α → Except Unordered Json) (R : α → α → Prop) (a b : α) :
    Prop :=
  ∀ j k, write a = .ok j → write b = .ok k → (j.Same k ↔ R a b)

section TellsApart

variable {α β : Type} {write : α → Except Unordered Json} {R : α → α → Prop}

theorem itemsSame_iff_of_mapM {as bs : List α} {js ks : List Json} (has : as.mapM write = .ok js)
    (hbs : bs.mapM write = .ok ks) (h : ∀ a ∈ as, ∀ b ∈ bs, TellsApart write R a b) :
    Json.ItemsSame js ks ↔ List.Forall₂ R as bs := by
  rw [mapM_eq_ok_iff] at has hbs
  induction has generalizing bs ks with
  | nil => cases hbs <;> simp [Json.ItemsSame]
  | @cons a j as js haj _ ih =>
    cases hbs with
    | nil => simp [Json.ItemsSame]
    | @cons b k bs ks hbk hbs =>
      have hitem := h a List.mem_cons_self b List.mem_cons_self j k haj hbk
      have hrest := ih hbs fun a ha b hb =>
        h a (List.mem_cons_of_mem _ ha) b (List.mem_cons_of_mem _ hb)
      rw [Json.ItemsSame, List.forall₂_cons, hitem, hrest]

/-- Partners in two lists are partners in what the lists are turned into. -/
theorem forall_exists_mem_iff_of_forall₂ {T : α → β → Prop} {S : β → β → Prop} {as bs : List α}
    {xs ys : List β} (has : List.Forall₂ T as xs) (hbs : List.Forall₂ T bs ys)
    (h : ∀ a ∈ as, ∀ b ∈ bs, ∀ x y, T a x → T b y → (S x y ↔ R a b)) :
    (∀ x ∈ xs, ∃ y ∈ ys, S x y) ↔ ∀ a ∈ as, ∃ b ∈ bs, R a b := by
  constructor
  · intro hxs a ha
    obtain ⟨x, hx, hax⟩ := exists_of_forall₂_of_mem has.flip ha
    obtain ⟨y, hy, hxy⟩ := hxs x hx
    obtain ⟨b, hb, hby⟩ := exists_of_forall₂_of_mem hbs hy
    exact ⟨b, hb, (h a ha b hb x y hax hby).mp hxy⟩
  · intro has' x hx
    obtain ⟨a, ha, hax⟩ := exists_of_forall₂_of_mem has hx
    obtain ⟨b, hb, hab⟩ := has' a ha
    obtain ⟨y, hy, hby⟩ := exists_of_forall₂_of_mem hbs.flip hb
    exact ⟨y, hy, (h a ha b hb x y hax hby).mpr hab⟩

end TellsApart

/-! ### Values that are told apart -/

theorem Scalar.same_toJson_iff {a b : Scalar} (ha : a.Elementary) (hb : b.Elementary) :
    a.toJson.Same b.toJson ↔ a = b := by
  cases a with
  | decimal _ | word _ | token _ => exact ha.elim
  | _ =>
    cases b with
    | decimal _ | word _ | token _ => exact hb.elim
    | _ => simp [toJson, Json.Same]

/-- What is written of an elementary scalar is neither an array nor an object. -/
theorem Scalar.Elementary.apart {a : Scalar} (ha : a.Elementary) (js : List Json)
    (ms : List (String × Json)) :
    (¬ a.toJson.Same (.arr js) ∧ ¬ (Json.arr js).Same a.toJson) ∧
      ¬ a.toJson.Same (.obj ms) ∧ ¬ (Json.obj ms).Same a.toJson := by
  cases a with
  | decimal _ | word _ | token _ => exact ha.elim
  | _ => simp [toJson, Json.Same]

namespace Value

/-- With distinct text keys every entry becomes a member, behind those that are done. -/
theorem exists_of_entriesToJson {m : Metadata} {done ms : List (String × Json)}
    (hkeys : (Assoc.keys done ++ Assoc.keys m).Nodup)
    (h : entriesToJson m.toEntries done = .ok ms) :
    ∃ new, ms = done ++ new ∧
      List.Forall₂ (fun e n => n.1 = e.1 ∧ e.2.toJson = .ok n.2) m new := by
  induction m generalizing done with
  | nil =>
    rw [Metadata.toEntries, List.map_nil, entriesToJson] at h
    cases h
    exact ⟨[], (List.append_nil _).symm, .nil⟩
  | cons e m ih =>
    obtain ⟨key, v⟩ := e
    rw [Assoc.keys_cons, List.append_cons] at hkeys
    rw [Metadata.toEntries, List.map_cons, entriesToJson] at h
    obtain ⟨j, hj, h⟩ := bind_eq_ok_iff.mp h
    have hnew : key ∉ Assoc.keys done := fun hmem =>
      absurd hkeys.of_append_left (by simp [List.nodup_append, hmem])
    rw [Scalar.render, Assoc.insert_of_notMem j hnew] at h
    have hkeys : (Assoc.keys (done ++ [(key, j)]) ++ Assoc.keys m).Nodup := by
      simpa [Assoc.keys] using hkeys
    obtain ⟨new, rfl, hall⟩ := ih hkeys h
    exact ⟨(key, j) :: new, by simp, .cons ⟨rfl, hj⟩ hall⟩

theorem forall₂_of_toJson_map {m : Metadata} {j : Json} (hkeys : (Assoc.keys m).Nodup)
    (h : (map m.toEntries).toJson = .ok j) :
    ∃ ms, j = .obj ms ∧ List.Forall₂ (fun e n => n.1 = e.1 ∧ e.2.toJson = .ok n.2) m ms := by
  rw [toJson] at h
  obtain ⟨ms, hms, rfl⟩ := map_eq_ok_iff.mp h
  have hkeys : (Assoc.keys ([] : List (String × Json)) ++ Assoc.keys m).Nodup := hkeys
  obtain ⟨new, hnew, hall⟩ := exists_of_entriesToJson hkeys hms
  rw [List.nil_append] at hnew
  exact ⟨new, congrArg Json.obj hnew, hall⟩

theorem forall₂_of_toJson_list {vs : List Value} {j : Json} (h : (list vs).toJson = .ok j) :
    ∃ js, j = .arr js ∧ vs.mapM toJson = .ok js := by
  rw [toJson, itemsToJson_eq] at h
  obtain ⟨js, hjs, rfl⟩ := map_eq_ok_iff.mp h
  exact ⟨js, rfl, hjs⟩

theorem eq_of_toJson_scalar {s : Scalar} {j : Json} (h : (scalar s).toJson = .ok j) :
    j = s.toJson := by
  rw [toJson] at h
  exact (Except.ok.inj h).symm

/-- Elementary values are told apart. -/
theorem Elementary.tellsApart {v w : Value} (hv : v.Elementary) (hw : w.Elementary) :
    TellsApart toJson Alike v w := by
  -- values of two shapes are neither alike nor written as equal values
  induction hv generalizing w with
  | scalar ha =>
    intro j k hj hk
    obtain rfl := eq_of_toJson_scalar hj
    cases hw with
    | scalar hb =>
      obtain rfl := eq_of_toJson_scalar hk
      rw [Alike, Scalar.same_toJson_iff ha hb]
    | list _ =>
      obtain ⟨ks, rfl, -⟩ := forall₂_of_toJson_list hk
      exact iff_of_false (ha.apart ks []).1.1 (by simp [Alike])
    | map hkeys' _ =>
      obtain ⟨ns, rfl, -⟩ := forall₂_of_toJson_map hkeys' hk
      exact iff_of_false (ha.apart [] ns).2.1 (by simp [Alike])
  | list _ ih =>
    intro j k hj hk
    obtain ⟨js, rfl, hjs⟩ := forall₂_of_toJson_list hj
    cases hw with
    | scalar hb =>
      obtain rfl := eq_of_toJson_scalar hk
      exact iff_of_false (hb.apart js []).1.2 (by simp [Alike])
    | list hitems =>
      obtain ⟨ks, rfl, hks⟩ := forall₂_of_toJson_list hk
      rw [Json.same_arr_iff, Alike, itemsAlike_iff]
      exact itemsSame_iff_of_mapM hjs hks fun a ha b hb => ih a ha (hitems b hb)
    | map hkeys' _ =>
      obtain ⟨ns, rfl, -⟩ := forall₂_of_toJson_map hkeys' hk
      simp [Json.Same, Alike]
  | map hkeys _ ih =>
    intro j k hj hk
    obtain ⟨ms, rfl, hms⟩ := forall₂_of_toJson_map hkeys hj
    cases hw with
    | scalar hb =>
      obtain rfl := eq_of_toJson_scalar hk
      exact iff_of_false (hb.apart [] ms).2.2 (by simp [Alike])
    | list _ =>
      obtain ⟨ks, rfl, -⟩ := forall₂_of_toJson_list hk
      simp [Json.Same, Alike]
    | map hkeys' hentries =>
      obtain ⟨ns, rfl, hns⟩ := forall₂_of_toJson_map hkeys' hk
      rw [← Metadata.Alike, Metadata.alike_iff, Json.same_obj_iff, hms.length_eq, hns.length_eq]
      refine and_congr_right' (forall_exists_mem_iff_of_forall₂ hms hns ?_)
      rintro e he f hf x y ⟨hx, hj⟩ ⟨hy, hk⟩
      rw [hx, hy, ih e he (hentries f hf) _ _ hj hk]

end Value

namespace Metadata

theorem Elementary.tellsApart {m n : Metadata} (hm : m.Elementary) (hn : n.Elementary) :
    TellsApart toJson Alike m n :=
  (Value.Elementary.map hm.keys hm.values).tellsApart (.map hn.keys hn.values)

end Metadata

end CodeOutline
