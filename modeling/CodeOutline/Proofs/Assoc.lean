/-
CodeOutline/Proofs/Assoc.lean

Entries that are written one after the other.

Text keys stay distinct (`nodup_keys_insertAll`), a key that is new goes to the end
(`insert_of_forall`), so entries with keys of their own are left as they are
(`insertAll_of_pairwise`, `ofList_ofList`), and what holds of all values that are written holds of
those that are left (`forall_mem_insertAll`).
-/
import CodeOutline.Assoc
import Mathlib.Data.List.Nodup

namespace CodeOutline.Assoc

variable {κ α : Type}

/-! ### Keys of their own -/

section Distinct

variable {same : κ → κ → Bool} {es : List (κ × α)}

theorem keys_append (es es' : List (κ × α)) : keys (es ++ es') = keys es ++ keys es' :=
  List.map_append

theorem ofList_concat (es : List (κ × α)) (e : κ × α) :
    ofList same (es ++ [e]) = insert same e.1 e.2 (ofList same es) :=
  insertAll_append same es [e] []

/-- A new key goes to the end. -/
theorem insert_of_forall {k : κ} (v : α)
    (h : ∀ k' ∈ keys es, same k' k = false) : insert same k v es = es ++ [(k, v)] := by
  induction es with
  | nil => rfl
  | cons e es ih =>
    rw [keys_cons, List.forall_mem_cons] at h
    rw [insert, h.1, if_neg Bool.false_ne_true, ih h.2, List.cons_append]

/-- Entries with keys of their own are left as they are. -/
theorem insertAll_of_pairwise {new : List (κ × α)}
    (h : (keys es ++ keys new).Pairwise (fun a b => same a b = false)) :
    insertAll same new es = es ++ new := by
  induction new generalizing es with
  | nil => exact (List.append_nil es).symm
  | cons e new ih =>
    have hnew : ∀ k ∈ keys es, same k e.1 = false := fun k hk =>
      (List.pairwise_append.mp h).2.2 k hk e.1 List.mem_cons_self
    have hrest : (keys (es ++ [e]) ++ keys new).Pairwise (fun a b => same a b = false) := by
      simpa [keys] using h
    rw [insertAll, List.foldl_cons, insert_of_forall e.2 hnew]
    exact (ih hrest).trans (List.append_cons es e new).symm

theorem keys_insert_of_exists {k : κ} (v : α) (h : ∃ k' ∈ keys es, same k' k = true) :
    keys (insert same k v es) = keys es := by
  induction es with
  | nil => simp at h
  | cons e es ih =>
    rw [insert]
    split
    · rfl
    · next he =>
      obtain ⟨k', hk', hsame⟩ := h
      rcases List.mem_cons.mp hk' with rfl | hk'
      · exact absurd hsame he
      · rw [keys_cons, keys_cons, ih ⟨k', hk', hsame⟩]

theorem pairwise_keys_insert (k : κ) (v : α)
    (h : (keys es).Pairwise (fun a b => same a b = false)) :
    (keys (insert same k v es)).Pairwise (fun a b => same a b = false) := by
  by_cases hk : ∃ k' ∈ keys es, same k' k = true
  · rwa [keys_insert_of_exists v hk]
  · have hnew : ∀ k' ∈ keys es, same k' k = false := by simpa using hk
    rw [insert_of_forall v hnew, keys_append]
    exact List.pairwise_append.mpr ⟨h, List.pairwise_singleton .., by simpa using hnew⟩

theorem pairwise_keys_insertAll (new : List (κ × α))
    (h : (keys es).Pairwise (fun a b => same a b = false)) :
    (keys (insertAll same new es)).Pairwise (fun a b => same a b = false) := by
  induction new generalizing es with
  | nil => exact h
  | cons e new ih => exact ih (pairwise_keys_insert e.1 e.2 h)

/-- What has been written one after the other is not changed by being written once more. -/
theorem ofList_ofList (es : List (κ × α)) : ofList same (ofList same es) = ofList same es :=
  insertAll_of_pairwise (pairwise_keys_insertAll es .nil)

end Distinct

/-! ### Keys -/

section Keys

variable [BEq κ] [LawfulBEq κ] {es : List (κ × α)}

theorem nodup_keys_insert (k : κ) (v : α) (h : (keys es).Nodup) :
    (keys (insert (· == ·) k v es)).Nodup := by
  rw [keys_insert]
  split
  · exact h
  · next hk => exact List.nodup_append_comm.mp (List.nodup_cons.mpr ⟨hk, h⟩)

theorem nodup_keys_insertAll (new : List (κ × α)) (h : (keys es).Nodup) :
    (keys (insertAll (· == ·) new es)).Nodup := by
  induction new generalizing es with
  | nil => exact h
  | cons e new ih => exact ih (nodup_keys_insert e.1 e.2 h)

theorem forall_mem_keys_insert {P : κ → Prop} {k : κ} (v : α) (hk : P k)
    (h : ∀ k' ∈ keys es, P k') : ∀ k' ∈ keys (insert (· == ·) k v es), P k' := by
  rw [keys_insert]
  split
  · exact h
  · exact List.forall_mem_append.mpr ⟨h, List.forall_mem_singleton.mpr hk⟩

/-- A value is found exactly under the keys of the entries. -/
theorem isSome_find?_iff {k : κ} : (find? (· == ·) k es).isSome = true ↔ k ∈ keys es := by
  induction es with
  | nil => simp
  | cons e es ih =>
    rw [find?, keys_cons, List.mem_cons]
    split
    · next h => simp [show e.1 = k by simpa using h]
    · next h =>
      rw [ih]
      simp [show ¬ k = e.1 from fun e' => h (by simp [e'])]

theorem find?_insertAll_of_notMem {k : κ} {new : List (κ × α)} (h : k ∉ keys new)
    (es : List (κ × α)) :
    find? (· == ·) k (insertAll (· == ·) new es) = find? (· == ·) k es := by
  induction new generalizing es with
  | nil => rfl
  | cons e new ih =>
    rw [keys_cons, List.mem_cons, not_or] at h
    rw [insertAll, List.foldl_cons]
    exact (ih h.2 _).trans (find?_insert_of_ne h.1 e.2 es)

theorem insert_of_notMem {k : κ} (v : α) (h : k ∉ keys es) :
    insert (· == ·) k v es = es ++ [(k, v)] :=
  insert_of_forall v fun _ hk => beq_eq_false_iff_ne.mpr (ne_of_mem_of_not_mem hk h)

theorem ofList_of_nodup (h : (keys es).Nodup) : ofList (· == ·) es = es :=
  insertAll_of_pairwise (h.imp fun hne => beq_eq_false_iff_ne.mpr hne)

theorem nodup_keys_ofList (es : List (κ × α)) : (keys (ofList (· == ·) es)).Nodup :=
  nodup_keys_insertAll es List.nodup_nil

/-- There are as many entries as before exactly if the key was there. -/
theorem length_insert_eq_iff {k : κ} (v : α) :
    (insert (· == ·) k v es).length = es.length ↔ k ∈ keys es := by
  have hcount : ∀ es : List (κ × α), (keys es).length = es.length := fun _ => List.length_map ..
  rw [← hcount, keys_insert, ← hcount es]
  split
  · next h => simp only [h]
  · next h => simp [h]

theorem mem_keys_insert {k k' : κ} (v : α) :
    k ∈ keys (insert (· == ·) k' v es) ↔ k ∈ keys es ∨ k = k' := by
  rw [keys_insert]
  split
  · next hmem =>
    refine ⟨.inl, ?_⟩
    rintro (h | rfl)
    · exact h
    · exact hmem
  · simp

/-- The keys are those that have been written. -/
theorem mem_keys_insertAll {k : κ} {new : List (κ × α)} :
    k ∈ keys (insertAll (· == ·) new es) ↔ k ∈ keys es ∨ k ∈ keys new := by
  induction new generalizing es with
  | nil => simp
  | cons e new ih =>
    rw [insertAll, List.foldl_cons, keys_cons, List.mem_cons, ← or_assoc, ← mem_keys_insert e.2]
    exact ih

/-- An entry is found unless another one with its key has been written later. -/
theorem find?_insertAll_cons {e : κ × α} {new : List (κ × α)} (h : e.1 ∉ keys new)
    (es : List (κ × α)) : find? (· == ·) e.1 (insertAll (· == ·) (e :: new) es) = some e.2 := by
  rw [insertAll, List.foldl_cons]
  exact (find?_insertAll_of_notMem h _).trans (find?_insert_self e.1 e.2 es)

end Keys

/-! ### Values -/

section Values

variable {same : κ → κ → Bool} {P : α → Prop} {es : List (κ × α)}

theorem forall_mem_insert (k : κ) {v : α} (hv : P v) (hes : ∀ e ∈ es, P e.2) :
    ∀ e ∈ insert same k v es, P e.2 := by
  induction es with
  | nil => simpa [insert] using hv
  | cons d es ih =>
    obtain ⟨hd, hrest⟩ := List.forall_mem_cons.mp hes
    rw [insert]
    split
    · exact List.forall_mem_cons.mpr ⟨hv, hrest⟩
    · exact List.forall_mem_cons.mpr ⟨hd, ih hrest⟩

/-- What holds of all values that are written holds of all that are there then. -/
theorem forall_mem_insertAll {new : List (κ × α)} (hnew : ∀ e ∈ new, P e.2)
    (hes : ∀ e ∈ es, P e.2) : ∀ e ∈ insertAll same new es, P e.2 := by
  induction new generalizing es with
  | nil => exact hes
  | cons e new ih =>
    obtain ⟨he, hrest⟩ := List.forall_mem_cons.mp hnew
    exact ih hrest (forall_mem_insert e.1 he hes)

end Values

end CodeOutline.Assoc
