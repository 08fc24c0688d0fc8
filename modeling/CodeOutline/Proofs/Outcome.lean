/-
CodeOutline/Proofs/Outcome.lean

Results that may be errors, taken apart.

A step after another has a result exactly when both have one (`bind_eq_ok_iff`), and an error
exactly when one of them has it (`bind_eq_error_iff`).  A list is gone through with a result
exactly when every item has one (`mapM_eq_ok_iff`); the error of a list is that of an item
(`exists_of_mapM_eq_error`).
-/
import CodeOutline.Failure
import Mathlib.Data.List.Forall2

namespace CodeOutline.Outcome

variable {ε δ α β : Type}

/-! ### One step after another -/

@[simp] theorem pure_eq (a : α) : (pure a : Except ε α) = .ok a := rfl

@[simp] theorem ok_bind (a : α) (f : α → Except ε β) : (Except.ok a >>= f) = f a := rfl

@[simp] theorem error_bind (e : ε) (f : α → Except ε β) : (Except.error e >>= f) = .error e := rfl

@[simp] theorem mapError_ok (f : ε → δ) (a : α) : (Except.ok a).mapError f = .ok a := rfl

theorem bind_eq_ok_iff {x : Except ε α} {f : α → Except ε β} {b : β} :
    x >>= f = .ok b ↔ ∃ a, x = .ok a ∧ f a = .ok b := by
  cases x with
  | error e => simp only [error_bind, reduceCtorEq, false_and, exists_false]
  | ok a => simp only [ok_bind, Except.ok.injEq, exists_eq_left']

theorem bind_eq_error_iff {x : Except ε α} {f : α → Except ε β} {e : ε} :
    x >>= f = .error e ↔ x = .error e ∨ ∃ a, x = .ok a ∧ f a = .error e := by
  cases x with
  | error e' =>
    simp only [error_bind, Except.error.injEq, reduceCtorEq, false_and, exists_false, or_false]
  | ok a => simp only [ok_bind, Except.ok.injEq, exists_eq_left', reduceCtorEq, false_or]

theorem map_eq_ok_iff {f : α → β} {x : Except ε α} {b : β} :
    x.map f = .ok b ↔ ∃ a, x = .ok a ∧ f a = b := by
  cases x with
  | error e => simp only [Except.map, reduceCtorEq, false_and, exists_false]
  | ok a => simp only [Except.map, Except.ok.injEq, exists_eq_left']

theorem map_eq_error_iff {f : α → β} {x : Except ε α} {e : ε} :
    x.map f = .error e ↔ x = .error e := by
  cases x with
  | error e' => simp only [Except.map, Except.error.injEq]
  | ok a => simp only [Except.map, reduceCtorEq]

theorem mapError_eq_ok_iff {f : ε → δ} {x : Except ε α} {a : α} :
    x.mapError f = .ok a ↔ x = .ok a := by
  cases x with
  | error e => simp only [Except.mapError, reduceCtorEq]
  | ok b => simp only [mapError_ok, Except.ok.injEq]

theorem mapError_eq_error_iff {f : ε → δ} {x : Except ε α} {e : δ} :
    x.mapError f = .error e ↔ ∃ e', x = .error e' ∧ f e' = e := by
  cases x with
  | error e' => simp only [Except.mapError, Except.error.injEq, exists_eq_left']
  | ok a => simp only [mapError_ok, reduceCtorEq, false_and, exists_false]

theorem built_eq_ok_iff {x : Except ArgumentError α} {a : α} : built x = .ok a ↔ x = .ok a :=
  mapError_eq_ok_iff

theorem sound_eq_ok_iff {x : Except TreeDefect α} {a : α} : sound x = .ok a ↔ x = .ok a :=
  mapError_eq_ok_iff

theorem exists_eq_ok_of_isOk {x : Except ε α} (h : x.isOk = true) : ∃ a, x = .ok a := by
  cases x with
  | error e => cases h
  | ok a => exact ⟨a, rfl⟩

/-! ### Lists -/

theorem mapM_eq_ok_iff {f : α → Except ε β} {xs : List α} {ys : List β} :
    xs.mapM f = .ok ys ↔ List.Forall₂ (fun x y => f x = .ok y) xs ys := by
  induction xs generalizing ys with
  | nil => cases ys <;> simp
  | cons x xs ih =>
    simp only [List.mapM_cons, bind_eq_ok_iff, ih, List.forall₂_cons_left_iff, pure_eq,
      Except.ok.injEq]
    constructor
    · rintro ⟨y, hy, ys, hys, rfl⟩
      exact ⟨y, ys, hy, hys, rfl⟩
    · rintro ⟨y, ys, hy, hys, rfl⟩
      exact ⟨y, hy, ys, hys, rfl⟩

/-- If a step has a result under a condition, and which one is known, a run of steps has the list of
these results under the condition for all items. -/
theorem mapM_eq_ok_iff_map {f : α → Except ε β} {P : α → Prop} {g : α → β}
    (h : ∀ x y, f x = .ok y ↔ P x ∧ y = g x) {xs : List α} {ys : List β} :
    xs.mapM f = .ok ys ↔ (∀ x ∈ xs, P x) ∧ ys = xs.map g := by
  induction xs generalizing ys with
  | nil => simp [eq_comm]
  | cons x xs ih =>
    simp only [List.mapM_cons, bind_eq_ok_iff, h, ih, pure_eq, Except.ok.injEq, List.map_cons,
      List.forall_mem_cons]
    constructor
    · rintro ⟨_, ⟨hx, rfl⟩, _, ⟨hxs, rfl⟩, rfl⟩
      exact ⟨⟨hx, hxs⟩, rfl⟩
    · rintro ⟨⟨hx, hxs⟩, rfl⟩
      exact ⟨_, ⟨hx, rfl⟩, _, ⟨hxs, rfl⟩, rfl⟩

theorem exists_mapM_eq_ok {f : α → Except ε β} {xs : List α} (h : ∀ x ∈ xs, ∃ y, f x = .ok y) :
    ∃ ys, xs.mapM f = .ok ys := by
  induction xs with
  | nil => exact ⟨[], rfl⟩
  | cons x xs ih =>
    obtain ⟨y, hy⟩ := h x List.mem_cons_self
    obtain ⟨ys, hys⟩ := ih fun x hx => h x (List.mem_cons_of_mem _ hx)
    exact ⟨y :: ys, by rw [List.mapM_cons, hy, ok_bind, hys, ok_bind, pure_eq]⟩

theorem exists_of_mapM_eq_error {f : α → Except ε β} {xs : List α} {e : ε}
    (h : xs.mapM f = .error e) : ∃ x ∈ xs, f x = .error e := by
  induction xs with
  | nil => cases h
  | cons x xs ih =>
    rw [List.mapM_cons, bind_eq_error_iff] at h
    rcases h with h | ⟨y, -, h⟩
    · -- the first item fails
      exact ⟨x, List.mem_cons_self, h⟩
    · -- the first item has a result, so one of the others fails
      rw [bind_eq_error_iff] at h
      rcases h with h | ⟨ys, -, h⟩
      · obtain ⟨x', hx', hf⟩ := ih h
        exact ⟨x', List.mem_cons_of_mem _ hx', hf⟩
      · cases h

/-- What holds of every result for an item holds of every item of the results. -/
theorem forall_mem_of_mapM {f : α → Except ε β} {xs : List α} {ys : List β} {P : β → Prop}
    (h : xs.mapM f = .ok ys) (hP : ∀ x ∈ xs, ∀ y, f x = .ok y → P y) : ∀ y ∈ ys, P y := by
  rw [mapM_eq_ok_iff] at h
  induction h with
  | nil => simp
  | cons hxy _ ih =>
    intro y hy
    rcases List.mem_cons.mp hy with rfl | hy
    · exact hP _ List.mem_cons_self _ hxy
    · exact ih (fun x hx => hP x (List.mem_cons_of_mem _ hx)) y hy

theorem forall_mem_of_flatten_mapM {f : α → Except ε (List β)} {xs : List α} {ys : List β}
    {P : β → Prop} (h : (xs.mapM f).map List.flatten = .ok ys)
    (hP : ∀ x ∈ xs, ∀ l, f x = .ok l → ∀ y ∈ l, P y) : ∀ y ∈ ys, P y := by
  obtain ⟨yss, hyss, rfl⟩ := map_eq_ok_iff.mp h
  exact List.forall_mem_flatten.mpr (forall_mem_of_mapM hyss hP)

/-- Where a step fails by its item alone, and always in one way, a run of steps fails exactly if one
of the items does. -/
theorem foldlM_eq_error_iff {step : β → α → Except ε β} {cause : ε} {bad : α → Prop}
    (h : ∀ s x e, step s x = .error e ↔ e = cause ∧ bad x) {xs : List α} {s : β} {e : ε} :
    xs.foldlM step s = .error e ↔ e = cause ∧ ∃ x ∈ xs, bad x := by
  induction xs generalizing s with
  | nil => simp
  | cons x xs ih =>
    simp only [List.foldlM_cons, bind_eq_error_iff, h, ih, List.mem_cons, exists_eq_or_imp]
    constructor
    · rintro (⟨he, hx⟩ | ⟨_, -, he, hxs⟩)
      · exact ⟨he, .inl hx⟩
      · exact ⟨he, .inr hxs⟩
    · rintro ⟨he, hx⟩
      by_cases hbad : bad x
      · exact .inl ⟨he, hbad⟩
      · -- a step over this item has a result, and the run goes on from there
        rcases hs : step s x with e' | s'
        · exact absurd ((h s x e').mp hs).2 hbad
        · exact .inr ⟨s', rfl, he, hx.resolve_left hbad⟩

theorem exists_of_forall₂_of_mem {R : α → β → Prop} {xs : List α} {ys : List β} {y : β}
    (h : List.Forall₂ R xs ys) (hy : y ∈ ys) : ∃ x ∈ xs, R x y := by
  induction h with
  | nil => cases hy
  | cons hxy _ ih =>
    rcases List.mem_cons.mp hy with rfl | hy
    · exact ⟨_, List.mem_cons_self, hxy⟩
    · obtain ⟨x, hx, hR⟩ := ih hy
      exact ⟨x, List.mem_cons_of_mem _ hx, hR⟩

/-- Items that give nothing can be left out. -/
theorem exists_forall₂_filter {R : α → List β → Prop} {p : α → Bool} {xs : List α}
    {yss : List (List β)} (h : List.Forall₂ R xs yss)
    (hnil : ∀ x ys, R x ys → p x = false → ys = []) :
    ∃ zss : List (List β), yss.flatten = zss.flatten ∧ List.Forall₂ R (xs.filter p) zss := by
  induction h with
  | nil => exact ⟨[], rfl, .nil⟩
  | @cons x ys xs yss hxy _ ih =>
    obtain ⟨zss, hflat, hzss⟩ := ih
    cases hp : p x with
    | true =>
      refine ⟨ys :: zss, by rw [List.flatten_cons, hflat, List.flatten_cons], ?_⟩
      rw [List.filter_cons_of_pos hp]
      exact .cons hxy hzss
    | false =>
      refine ⟨zss, by rw [hnil x ys hxy hp, List.flatten_cons, List.nil_append, hflat], ?_⟩
      rw [List.filter_cons_of_neg (by simp [hp])]
      exact hzss

/-! ### Kinds of errors -/

/-- All errors of a result are of a kind. -/
def ErrorsIn (Q : ε → Prop) (x : Except ε α) : Prop := ∀ e, x = .error e → Q e

variable {Q : ε → Prop}

theorem errorsIn_ok (a : α) : ErrorsIn Q (.ok a) := fun _ h => by cases h

theorem ErrorsIn.bind {x : Except ε α} {f : α → Except ε β} (hx : ErrorsIn Q x)
    (hf : ∀ a, ErrorsIn Q (f a)) : ErrorsIn Q (x >>= f) := by
  intro e h
  rcases bind_eq_error_iff.mp h with h | ⟨a, -, h⟩
  · exact hx e h
  · exact hf a e h

/-- As `ErrorsIn.bind`, where the second step may rely on what the first one gave. -/
theorem ErrorsIn.bind_of_eq {x : Except ε α} {f : α → Except ε β} (hx : ErrorsIn Q x)
    (hf : ∀ a, x = .ok a → ErrorsIn Q (f a)) : ErrorsIn Q (x >>= f) := by
  intro e h
  rcases bind_eq_error_iff.mp h with h | ⟨a, ha, h⟩
  · exact hx e h
  · exact hf a ha e h

theorem ErrorsIn.map {x : Except ε α} (hx : ErrorsIn Q x) (f : α → β) : ErrorsIn Q (x.map f) :=
  fun e h => hx e (map_eq_error_iff.mp h)

theorem errorsIn_mapError {x : Except δ α} {f : δ → ε} (h : ∀ e, x = .error e → Q (f e)) :
    ErrorsIn Q (x.mapError f) := by
  intro e he
  obtain ⟨e', he', rfl⟩ := mapError_eq_error_iff.mp he
  exact h e' he'

theorem errorsIn_mapM {f : α → Except ε β} {xs : List α} (h : ∀ x ∈ xs, ErrorsIn Q (f x)) :
    ErrorsIn Q (xs.mapM f) := by
  intro e he
  obtain ⟨x, hx, hf⟩ := exists_of_mapM_eq_error he
  exact h x hx e hf

end CodeOutline.Outcome
