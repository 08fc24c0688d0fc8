/-
CodeOutline/Proofs/Json.lean

JSON values that are well formed, and equality of JSON values.

An object is well formed if no two of its members have one name.  The order of members does not
count: two objects are equal if they are of one size and each member of the one has an equal one of
the same name in the other.  All else is equal only exactly, so `true` is not `1`.
-/
import CodeOutline.Json
import Mathlib.Data.List.Forall2

namespace CodeOutline.Json

/-- No object in a value, at any depth, names a member twice. -/
inductive WellFormed : Json → Prop
  | null : WellFormed .null
  | bool (b : Bool) : WellFormed (.bool b)
  | int (n : Int) : WellFormed (.int n)
  | decimal (d : Decimal) : WellFormed (.decimal d)
  | str (s : String) : WellFormed (.str s)
  | arr {items : List Json} (hitems : ∀ j ∈ items, WellFormed j) : WellFormed (.arr items)
  | obj {members : List (String × Json)} (hnames : (Assoc.keys members).Nodup)
    (hmembers : ∀ m ∈ members, WellFormed m.2) : WellFormed (.obj members)

attribute [simp] WellFormed.null WellFormed.bool WellFormed.int WellFormed.decimal WellFormed.str

@[simp] theorem wellFormed_arr_iff {items : List Json} :
    WellFormed (.arr items) ↔ ∀ j ∈ items, j.WellFormed := by
  constructor
  · rintro ⟨⟩
    assumption
  · exact .arr

@[simp] theorem wellFormed_obj_iff {members : List (String × Json)} :
    WellFormed (.obj members) ↔
      (Assoc.keys members).Nodup ∧ ∀ m ∈ members, m.2.WellFormed := by
  constructor
  · rintro ⟨⟩
    exact ⟨‹_›, ‹_›⟩
  · exact fun h => .obj h.1 h.2

mutual

/-- Whether two values are equal, whatever the order of members. -/
def Same : Json → Json → Prop
  | .null, .null => True
  | .bool a, .bool b => a = b
  | .int m, .int n => m = n
  | .decimal d, .decimal e => d = e
  | .str s, .str t => s = t
  | .arr js, .arr ks => ItemsSame js ks
  | .obj ms, .obj ns => ms.length = ns.length ∧ MembersSame ms ns
  | _, _ => False

/-- Whether two arrays are equal item by item. -/
def ItemsSame : List Json → List Json → Prop
  | [], [] => True
  | j :: js, k :: ks => Same j k ∧ ItemsSame js ks
  | _, _ => False

/-- Whether every member of the first list has an equal one in the second. -/
def MembersSame : List (String × Json) → List (String × Json) → Prop
  | [], _ => True
  | (n, j) :: ms, ns => (∃ k, (n, k) ∈ ns ∧ Same j k) ∧ MembersSame ms ns

end

@[simp] theorem same_null : Same .null .null := trivial

@[simp] theorem not_same_null_obj (ms : List (String × Json)) : ¬ Same .null (.obj ms) := not_false

@[simp] theorem not_same_obj_null (ms : List (String × Json)) : ¬ Same (.obj ms) .null := not_false

@[simp] theorem same_int_iff {m n : Int} : Same (.int m) (.int n) ↔ m = n := .rfl

@[simp] theorem same_str_iff {s t : String} : Same (.str s) (.str t) ↔ s = t := .rfl

@[simp] theorem same_arr_iff {js ks : List Json} : Same (.arr js) (.arr ks) ↔ ItemsSame js ks := by
  rw [Same]

theorem same_obj_iff {ms ns : List (String × Json)} :
    Same (.obj ms) (.obj ns) ↔
      ms.length = ns.length ∧ ∀ m ∈ ms, ∃ n ∈ ns, n.1 = m.1 ∧ m.2.Same n.2 := by
  show ms.length = ns.length ∧ MembersSame ms ns ↔ _
  refine and_congr_right' ?_
  induction ms with
  | nil => simp [MembersSame]
  | cons m ms ih =>
    obtain ⟨name, j⟩ := m
    rw [MembersSame, ih, List.forall_mem_cons]
    simp

/-- Objects with the same distinct names are equal if their members are equal one by one. -/
theorem same_obj_iff_forall₂ {ms ns : List (String × Json)} (h : Assoc.keys ms = Assoc.keys ns)
    (hnodup : (Assoc.keys ns).Nodup) :
    Same (.obj ms) (.obj ns) ↔ List.Forall₂ (fun m n => m.2.Same n.2) ms ns := by
  have hlength : ms.length = ns.length := by simpa [Assoc.keys] using congrArg List.length h
  rw [same_obj_iff, and_iff_right hlength]
  clear hlength
  induction ms generalizing ns with
  | nil =>
    obtain rfl : ns = [] := List.map_eq_nil_iff.mp h.symm
    simp
  | cons m ms ih =>
    cases ns with
    | nil => cases h
    | cons n ns =>
      rw [Assoc.keys_cons, Assoc.keys_cons, List.cons.injEq] at h
      obtain ⟨hname, hnames⟩ := h
      obtain ⟨hfirst, hrest⟩ := List.nodup_cons.mp hnodup
      constructor
      · intro hall
        obtain ⟨⟨n', hn', hname', hsame⟩, hothers⟩ := List.forall_mem_cons.mp hall
        -- no other member has the name of the first one
        have hn : n' = n := by
          rcases List.mem_cons.mp hn' with rfl | hn'
          · rfl
          · exact absurd (List.mem_map.mpr ⟨n', hn', hname'.trans hname⟩) hfirst
        refine .cons (hn ▸ hsame) ((ih hnames hrest).mp fun m' hm' => ?_)
        obtain ⟨n', hn', hname', hsame⟩ := hothers m' hm'
        rcases List.mem_cons.mp hn' with rfl | hn'
        · have hmem : n'.1 ∈ Assoc.keys ms := hname' ▸ List.mem_map_of_mem hm'
          rw [hnames] at hmem
          exact absurd hmem hfirst
        · exact ⟨n', hn', hname', hsame⟩
      · rintro (_ | ⟨hsame, hothers⟩)
        refine List.forall_mem_cons.mpr ⟨⟨n, List.mem_cons_self, hname.symm, hsame⟩, ?_⟩
        intro m' hm'
        obtain ⟨n', hn', h'⟩ := (ih hnames hrest).mpr hothers m' hm'
        exact ⟨n', List.mem_cons_of_mem _ hn', h'⟩

end CodeOutline.Json
