/-
CodeOutline/Assoc.lean

Entries in the order in which their keys first came.

An entry list is looked up by a comparison of keys that is given with every call, since text keys
are compared letter by letter and number keys by value.  Writing to a key that is there already
keeps its place and its spelling and replaces the value.
-/

namespace CodeOutline.Assoc

variable {κ α β : Type}

/-- The value under a key. -/
def find? (same : κ → κ → Bool) (k : κ) : List (κ × α) → Option α
  | [] => none
  | (k', v) :: es => if same k' k then some v else find? same k es

/-- Writes a value under a key. -/
def insert (same : κ → κ → Bool) (k : κ) (v : α) : List (κ × α) → List (κ × α)
  | [] => [(k, v)]
  | (k', v') :: es => if same k' k then (k', v) :: es else (k', v') :: insert same k v es

/-- Writes entries one after the other. -/
def insertAll (same : κ → κ → Bool) (new es : List (κ × α)) : List (κ × α) :=
  new.foldl (fun es e => insert same e.1 e.2 es) es

/-- The entries left when they are written one after the other. -/
def ofList (same : κ → κ → Bool) (es : List (κ × α)) : List (κ × α) := insertAll same es []

/-- The keys, in order. -/
def keys (es : List (κ × α)) : List κ := es.map Prod.fst

@[simp] theorem find?_nil (same : κ → κ → Bool) (k : κ) :
    find? same k ([] : List (κ × α)) = none := rfl

@[simp] theorem insertAll_nil (same : κ → κ → Bool) (es : List (κ × α)) :
    insertAll same [] es = es := rfl

theorem insertAll_append (same : κ → κ → Bool) (a b es : List (κ × α)) :
    insertAll same (a ++ b) es = insertAll same b (insertAll same a es) := by
  simp [insertAll]

/-- What is written is found. -/
theorem find?_insert_self [BEq κ] [LawfulBEq κ] (k : κ) (v : α) (es : List (κ × α)) :
    find? (· == ·) k (insert (· == ·) k v es) = some v := by
  induction es with
  | nil => simp [insert, find?]
  | cons e es ih =>
    simp only [insert]
    split
    · next h => simp [find?, h]
    · next h => simp [find?, h, ih]

/-- Writing leaves the other keys alone. -/
theorem find?_insert_of_ne [BEq κ] [LawfulBEq κ] {k j : κ} (h : j ≠ k) (v : α)
    (es : List (κ × α)) :
    find? (· == ·) j (insert (· == ·) k v es) = find? (· == ·) j es := by
  induction es with
  | nil => simp [insert, find?, Ne.symm h]
  | cons e es ih =>
    obtain ⟨k', v'⟩ := e
    simp only [insert]
    split
    · next e =>
      have e : k' = k := by simpa using e
      subst e
      simp [find?, Ne.symm h]
    · simp [find?, ih]

@[simp] theorem keys_nil : keys ([] : List (κ × α)) = [] := rfl

@[simp] theorem keys_cons (e : κ × α) (es : List (κ × α)) : keys (e :: es) = e.1 :: keys es := rfl

/-- A key keeps its place; a new one goes to the end. -/
theorem keys_insert [BEq κ] [LawfulBEq κ] (k : κ) (v : α) (es : List (κ × α)) :
    keys (insert (· == ·) k v es) = if k ∈ keys es then keys es else keys es ++ [k] := by
  induction es with
  | nil => simp [insert]
  | cons e es ih =>
    by_cases h : e.1 = k
    · simp [insert, h]
    · by_cases g : k ∈ keys es <;> simp [insert, h, ih, g, Ne.symm h]

end CodeOutline.Assoc
