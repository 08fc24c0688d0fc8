/-
CodeOutline/Proofs/Registry.lean

Registries after any number of registrations.

`run` makes calls one after the other, beginning with a registry without entries; a call that
fails has no effect.  Whether a call succeeds and what it enters is told by the call alone
(`Call.entered?`, `register_eq_ok_iff`), so a registry is told by the calls that led to it: under
an extension stands what the last successful call for it entered (`find?_run`).

`Sound` is what all these registries have in common.  A call keeps it (`Sound.after`), hence a run
has it (`sound_run`).  The main statement puts the ways to look something up together
(`lookups_of_run`).
-/
import CodeOutline.Proofs.Assoc
import CodeOutline.Proofs.Outcome
import CodeOutline.Proofs.Text.Blank
import CodeOutline.Proofs.Text.Lowercase
import CodeOutline.Registry
import Mathlib.Data.List.Induction
import Mathlib.Data.List.Nodup
import Mathlib.Data.String.Basic

namespace CodeOutline

namespace Registry

variable {α : Type}

/-! ### Calls -/

/-- A call that makes a maker responsible for an extension. -/
structure Call (α : Type) where
  extension : Option String
  maker : Option (Path → α)

/-- The registry after a call, which leaves it as it is if it fails. -/
def after (r : Registry α) (c : Call α) : Registry α :=
  match r.register c.extension c.maker with
  | .ok r' => r'
  | .error _ => r

/-- The registry after some calls, of which the first meets no entries. -/
def run (cs : List (Call α)) : Registry α := cs.foldl after empty

/-- What a call enters if it succeeds: its maker, under the form in which its extension is kept. -/
def Call.entered? (c : Call α) : Option (String × (Path → α)) :=
  match c.extension, c.maker with
  | some extension, some maker =>
    if Text.allBlank (normal extension) then none else some (normal extension, maker)
  | _, _ => none

/-- The maker that the last successful call for an extension brought. -/
def lastMaker? (cs : List (Call α)) (key : String) : Option (Path → α) :=
  ((cs.filterMap Call.entered?).reverse.find? (fun e => e.1 == key)).map Prod.snd

/-- Nothing is left of blanks alone. -/
theorem allBlank_normal {extension : String} (h : Text.allBlank extension = true) :
    Text.allBlank (normal extension) = true := by
  have htrim : Text.trim extension.toList = [] := by
    rw [Text.trim, Text.trimLeft_eq_nil_iff.mpr h, Text.trimRight_nil]
  simp [normal, htrim, undotted]

/-- A call succeeds on every registry or on none, and what it enters does not depend on it. -/
theorem register_eq_ok_iff {r r' : Registry α} {c : Call α} :
    r.register c.extension c.maker = .ok r' ↔
      ∃ e, c.entered? = some e ∧ r' = ⟨Assoc.insert (· == ·) e.1 e.2 r.entries⟩ := by
  obtain ⟨extension, maker⟩ := c
  rcases extension with - | extension
  · simp only [register, Call.entered?, reduceCtorEq, false_and, exists_false]
  · rcases maker with - | maker
    · simp only [register, Call.entered?]
      split <;> simp only [reduceCtorEq, false_and, exists_false]
    · simp only [register, Call.entered?]
      split
      · -- an extension of blanks alone, of which nothing is left either
        next h => simp only [allBlank_normal h, if_true, reduceCtorEq, false_and, exists_false]
      · split
        · simp only [reduceCtorEq, false_and, exists_false]
        · simp only [Except.ok.injEq, Option.some.injEq, exists_eq_left']
          exact eq_comm

theorem after_of_entered? {c : Call α} {e : String × (Path → α)} (h : c.entered? = some e)
    (r : Registry α) : r.after c = ⟨Assoc.insert (· == ·) e.1 e.2 r.entries⟩ := by
  have hr : r.register c.extension c.maker = .ok ⟨Assoc.insert (· == ·) e.1 e.2 r.entries⟩ :=
    register_eq_ok_iff.mpr ⟨e, h, rfl⟩
  rw [after, hr]

theorem after_of_error {r : Registry α} {c : Call α} {e : ArgumentError}
    (h : r.register c.extension c.maker = .error e) : r.after c = r := by
  rw [after, h]

theorem after_of_entered?_eq_none {c : Call α} (h : c.entered? = none) (r : Registry α) :
    r.after c = r := by
  rcases hr : r.register c.extension c.maker with e | r'
  · exact after_of_error hr
  · obtain ⟨e, he, -⟩ := register_eq_ok_iff.mp hr
    rw [h] at he
    cases he

theorem run_concat (cs : List (Call α)) (c : Call α) : run (cs ++ [c]) = (run cs).after c := by
  rw [run, List.foldl_append]
  rfl

/-! ### What all registries have in common -/

/-- Every extension stands in a registry once, is not blank and does not begin with a dot. -/
structure Sound (r : Registry α) : Prop where
  nodup : (Assoc.keys r.entries).Nodup
  notBlank : ∀ k ∈ Assoc.keys r.entries, Text.allBlank k = false
  undotted : ∀ k ∈ Assoc.keys r.entries, k.toList.head? ≠ some '.'

theorem head?_normal_ne_dot (extension : String) :
    (normal extension).toList.head? ≠ some '.' := by
  rw [normal, String.toList_ofList, Registry.undotted]
  refine Text.head?_lower_ne_dot fun h => ?_
  have hdot := List.head?_dropWhile_not (· == '.') (Text.trim extension.toList)
  rw [h] at hdot
  simp at hdot

theorem sound_empty : (empty : Registry α).Sound := ⟨.nil, by simp [empty], by simp [empty]⟩

/-- A call keeps what all registries have in common. -/
theorem Sound.after {r : Registry α} (h : r.Sound) (c : Call α) : (r.after c).Sound := by
  rcases hc : c.entered? with - | e
  · rwa [after_of_entered?_eq_none hc]
  · rw [after_of_entered? hc]
    -- the key that is written is the normal form of an extension
    have hkey : Text.allBlank e.1 = false ∧ e.1.toList.head? ≠ some '.' := by
      unfold Call.entered? at hc
      split at hc
      · split at hc
        · cases hc
        · next hblank =>
          cases hc
          exact ⟨by simpa using hblank, head?_normal_ne_dot _⟩
      · cases hc
    exact ⟨Assoc.nodup_keys_insert e.1 e.2 h.nodup,
      Assoc.forall_mem_keys_insert e.2 hkey.1 h.notBlank,
      Assoc.forall_mem_keys_insert e.2 hkey.2 h.undotted⟩

theorem sound_run (cs : List (Call α)) : (run cs).Sound := by
  induction cs using List.reverseRecOn with
  | nil => exact sound_empty
  | append_singleton cs c ih =>
    rw [run_concat]
    exact ih.after c

/-! ### Looking up -/

theorem lastMaker?_concat (cs : List (Call α)) (c : Call α) (key : String) :
    lastMaker? (cs ++ [c]) key =
      match c.entered? with
      | some e => if e.1 = key then some e.2 else lastMaker? cs key
      | none => lastMaker? cs key := by
  unfold lastMaker?
  rcases hc : c.entered? with - | e
  · simp [hc]
  · rw [List.filterMap_append, List.filterMap_cons_some hc, List.filterMap_nil,
      List.reverse_append, List.reverse_singleton, List.singleton_append, List.find?_cons]
    by_cases he : e.1 = key
    · simp [he]
    · simp [he, beq_eq_false_iff_ne.mpr he]

/-- Under an extension stands what the last successful call for it brought. -/
theorem find?_run (cs : List (Call α)) (key : String) :
    Assoc.find? (· == ·) key (run cs).entries = lastMaker? cs key := by
  induction cs using List.reverseRecOn with
  | nil => rfl
  | append_singleton cs c ih =>
    rw [run_concat, lastMaker?_concat]
    rcases hc : c.entered? with - | e
    · rw [after_of_entered?_eq_none hc]
      exact ih
    · rw [after_of_entered? hc]
      dsimp only
      split
      · next he =>
        rw [← he]
        exact Assoc.find?_insert_self e.1 e.2 _
      · next he =>
        rw [Assoc.find?_insert_of_ne (Ne.symm he)]
        exact ih

theorem perm_extensions (r : Registry α) : r.extensions.Perm (Assoc.keys r.entries) :=
  List.mergeSort_perm ..

theorem length_extensions (r : Registry α) : r.extensions.length = r.size := by
  rw [r.perm_extensions.length_eq, Assoc.keys, List.length_map, size]

/-- The extensions of a registry without repetitions are in strictly ascending order. -/
theorem Sound.pairwise_extensions {r : Registry α} (h : r.Sound) :
    r.extensions.Pairwise (· < ·) := by
  have hsorted : r.extensions.Pairwise (fun a b => decide (a ≤ b) = true) :=
    List.pairwise_mergeSort (fun a b c hab hbc => by
        simp only [decide_eq_true_eq] at *
        exact le_trans hab hbc)
      (fun a b => by simpa using le_total a b) _
  have hnodup : r.extensions.Nodup := r.perm_extensions.nodup_iff.mpr h.nodup
  refine (hsorted.and hnodup).imp fun hab => ?_
  exact lt_of_le_of_ne (of_decide_eq_true hab.1) hab.2

theorem supports_iff {r : Registry α} {path : Path} :
    r.supports path = true ↔ path.extension ∈ r.extensions := by
  rw [supports, Assoc.isSome_find?_iff, r.perm_extensions.mem_iff]

/-- After any calls on an empty registry: a further call that fails changes nothing; all extensions
are neither blank nor begin with a dot; they are listed in strictly ascending order, and as many as
there are entries; and for a file the maker of the last successful call for its extension is asked,
with the given root or else the folder of the file, and nothing is made exactly where the extension
of the file is not listed. -/
theorem lookups_of_run (cs : List (Call α)) :
    (∀ c : Call α,
      ((∃ r, (run cs).register c.extension c.maker = .ok r) ↔ c.entered?.isSome = true) ∧
      ∀ e, (run cs).register c.extension c.maker = .error e → run (cs ++ [c]) = run cs) ∧
    (∀ k ∈ Assoc.keys (run cs).entries, Text.allBlank k = false ∧ k.toList.head? ≠ some '.') ∧
    (run cs).extensions.Perm (Assoc.keys (run cs).entries) ∧
    (run cs).extensions.Pairwise (· < ·) ∧ (run cs).size = (run cs).extensions.length ∧
    ∀ (path : Path) (root : Option Path),
      (run cs).resolve path root
        = (lastMaker? cs path.extension).map (fun maker => maker (root.getD path.parent)) ∧
      ((run cs).resolve path root = none ↔ (run cs).supports path = false) ∧
      ((run cs).supports path = false ↔ path.extension ∉ (run cs).extensions) := by
  have hsound := sound_run cs
  refine ⟨fun c => ⟨?_, fun e he => ?_⟩, fun k hk => ⟨hsound.notBlank k hk, hsound.undotted k hk⟩,
    perm_extensions _, hsound.pairwise_extensions, (length_extensions _).symm,
    fun path root => ⟨?_, ?_, ?_⟩⟩
  · simp [register_eq_ok_iff, Option.isSome_iff_exists]
  · rw [run_concat, after_of_error he]
  · rw [resolve, find?_run]
  · rw [← isSome_resolve _ _ root, Option.isSome_eq_false_iff, Option.isNone_iff_eq_none]
  · rw [← Bool.not_eq_true, supports_iff]

end Registry

end CodeOutline
