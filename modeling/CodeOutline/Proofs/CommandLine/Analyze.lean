/-
CodeOutline/Proofs/CommandLine/Analyze.lean

The command `analyze` on several files.

The command gives one outcome for each path, and an outcome depends on its path only, but for the
ids (`forall₂_outcomes`).  So the answer to a list of paths is put together from the answers to its
parts, down to those of single paths: nothing about one file changes what is told about another
one.  Every outcome can be written, so the command always has an answer (`lists_outcomes`,
`prints_outcomes`).
-/
import CodeOutline.CommandLine
import CodeOutline.Proofs.Analysis

namespace CodeOutline.CommandLine

open Outcome

variable {w : Workspace} {root : Option Path}

/-! ### Outcomes -/

/-- Two outcomes of one file: the same failure, or units that are equal but for their ids. -/
def SameOutcome (o o' : Outcome) : Prop :=
  o.1 = o'.1 ∧ Agree CodeUnit.Renamed o.2 o'.2

theorem agree_unitOf (ids ids' : IdSource) (path : Path) :
    Agree CodeUnit.Renamed (unitOf w ids root path) (unitOf w ids' root path) :=
  w.agree_getD_unitOf? ids ids' path root _

theorem writable_of_unitOf {ids : IdSource} {path : Path} {u : CodeUnit}
    (h : unitOf w ids root path = .ok u) : u.Writable :=
  w.writable_of_unitOf? h

theorem outcomes_append (ids : Nat → IdSource) (next : Nat) (ps qs : List Path) :
    outcomes w ids root next (ps ++ qs) =
      outcomes w ids root next ps ++ outcomes w ids root (next + ps.length) qs := by
  induction ps generalizing next with
  | nil => rfl
  | cons p ps ih =>
    rw [List.cons_append, outcomes, outcomes, ih, List.cons_append, List.length_cons,
      Nat.add_assoc, Nat.add_comm 1]

/-- The outcomes of some files depend on ids only in those of their units, and so not on the place
of a file either. -/
theorem forall₂_outcomes (w : Workspace) (root : Option Path) (ids ids' : Nat → IdSource)
    (next next' : Nat) (ps : List Path) :
    List.Forall₂ SameOutcome (outcomes w ids root next ps) (outcomes w ids' root next' ps) := by
  induction ps generalizing next next' with
  | nil => exact .nil
  | cons p ps ih => exact .cons ⟨rfl, agree_unitOf (ids next) (ids' next') p⟩ (ih _ _)

theorem writable_of_mem_outcomes {ids : Nat → IdSource} {next : Nat} {ps : List Path} {o : Outcome}
    (h : o ∈ outcomes w ids root next ps) {u : CodeUnit} (hu : o.2 = .ok u) : u.Writable := by
  induction ps generalizing next with
  | nil => cases h
  | cons p ps ih =>
    rw [outcomes] at h
    rcases List.mem_cons.mp h with rfl | h
    · exact writable_of_unitOf hu
    · exact ih h

/-! ### What is told about outcomes -/

theorem SameOutcome.hasFailed_eq {o o' : Outcome} (h : SameOutcome o o') :
    hasFailed o = hasFailed o' := by
  obtain ⟨path, r⟩ := o
  obtain ⟨path', r'⟩ := o'
  obtain ⟨-, h⟩ := h
  cases h <;> rfl

theorem SameOutcome.outcomeTable?_eq {o o' : Outcome} (h : SameOutcome o o') :
    outcomeTable? o = outcomeTable? o' := by
  obtain ⟨path, r⟩ := o
  obtain ⟨path', r'⟩ := o'
  obtain ⟨-, h⟩ := h
  cases h with
  | error e => rfl
  | ok h => simp only [outcomeTable?, h.unitTable_eq]

theorem SameOutcome.outcomeError?_eq {o o' : Outcome} (h : SameOutcome o o') :
    outcomeError? o = outcomeError? o' := by
  obtain ⟨path, r⟩ := o
  obtain ⟨path', r'⟩ := o'
  obtain ⟨hpath, h⟩ := h
  cases h with
  | error e => simp only [outcomeError?, show path = path' from hpath]
  | ok h => rfl

/-- Two entries for one path in JSON: the same, or with units that are equal but for their ids. -/
inductive SameEntry : Json → Json → Prop
  | failed (path : Path) (e : AnalysisError) :
      SameEntry (.obj [("path", .str path.text), ("error", .str e.message)])
        (.obj [("path", .str path.text), ("error", .str e.message)])
  | analyzed (path : Path) {u v : CodeUnit} {j k : Json} : u.Renamed v →
      u.toJson true = .ok j → v.toJson true = .ok k →
      SameEntry (.obj [("path", .str path.text), ("unit", j)])
        (.obj [("path", .str path.text), ("unit", k)])

theorem exists_outcomeToJson {o : Outcome} (h : ∀ u, o.2 = .ok u → u.Writable) :
    ∃ j, outcomeToJson o = .ok j := by
  obtain ⟨path, _ | u⟩ := o
  · exact ⟨_, rfl⟩
  · obtain ⟨j, hj⟩ := (h u rfl).exists_toJson true
    simp [outcomeToJson, hj]

theorem SameOutcome.sameEntry {o o' : Outcome} (h : SameOutcome o o') {j k : Json}
    (hj : outcomeToJson o = .ok j) (hk : outcomeToJson o' = .ok k) : SameEntry j k := by
  obtain ⟨path, r⟩ := o
  obtain ⟨path', r'⟩ := o'
  obtain ⟨hpath, h⟩ := h
  obtain rfl : path = path' := hpath
  cases h with
  | error e =>
    cases hj
    cases hk
    exact .failed path e
  | ok h =>
    simp only [outcomeToJson, bind_eq_ok_iff, pure_eq, Except.ok.injEq] at hj hk
    obtain ⟨j, hj, rfl⟩ := hj
    obtain ⟨k, hk, rfl⟩ := hk
    exact .analyzed path h hj hk

theorem get?_path_of_outcomeToJson {o : Outcome} {j : Json} (h : outcomeToJson o = .ok j) :
    j.get? "path" = some (.str o.1.text) := by
  obtain ⟨path, _ | u⟩ := o
  · cases h
    rfl
  · simp only [outcomeToJson, bind_eq_ok_iff, pure_eq, Except.ok.injEq] at h
    obtain ⟨j, -, rfl⟩ := h
    rfl

/-! ### Several outcomes -/

section Several

variable {os os' : List Outcome}

theorem map_eq_of_forall₂ {α β : Type} {R : α → α → Prop} {f : α → β} {xs ys : List α}
    (h : List.Forall₂ R xs ys) (hf : ∀ x y, R x y → f x = f y) : xs.map f = ys.map f := by
  induction h with
  | nil => rfl
  | cons hxy _ ih => rw [List.map_cons, List.map_cons, hf _ _ hxy, ih]

theorem any_hasFailed_eq (h : List.Forall₂ SameOutcome os os') :
    os.any hasFailed = os'.any hasFailed := by
  have hmap := map_eq_of_forall₂ h fun _ _ => SameOutcome.hasFailed_eq
  simpa only [List.any_map, Function.id_comp] using congrArg (List.any · id) hmap

theorem filterMap_outcomeTable?_eq (h : List.Forall₂ SameOutcome os os') :
    os.filterMap outcomeTable? = os'.filterMap outcomeTable? := by
  have hmap := map_eq_of_forall₂ h fun _ _ => SameOutcome.outcomeTable?_eq
  simpa only [List.filterMap_map, Function.id_comp] using congrArg (List.filterMap id) hmap

theorem filterMap_outcomeError?_eq (h : List.Forall₂ SameOutcome os os') :
    os.filterMap outcomeError? = os'.filterMap outcomeError? := by
  have hmap := map_eq_of_forall₂ h fun _ _ => SameOutcome.outcomeError?_eq
  simpa only [List.filterMap_map, Function.id_comp] using congrArg (List.filterMap id) hmap

theorem forall₂_sameEntry {js ks : List Json} (h : List.Forall₂ SameOutcome os os')
    (hj : os.mapM outcomeToJson = .ok js) (hk : os'.mapM outcomeToJson = .ok ks) :
    List.Forall₂ SameEntry js ks := by
  rw [mapM_eq_ok_iff] at hj hk
  induction h generalizing js ks with
  | nil =>
    cases hj
    cases hk
    exact .nil
  | cons ho _ ih =>
    cases hj with
    | cons hj hjs =>
      cases hk with
      | cons hk hks => exact .cons (ho.sameEntry hj hk) (ih hjs hks)

theorem exists_entries (w : Workspace) (root : Option Path) (ids : Nat → IdSource) (next : Nat)
    (ps : List Path) :
    ∃ js, (outcomes w ids root next ps).mapM outcomeToJson = .ok js :=
  exists_mapM_eq_ok fun _ ho => exists_outcomeToJson fun _ hu => writable_of_mem_outcomes ho hu

theorem exitCodeOf_eq_one_iff {failed : Bool} : exitCodeOf failed = 1 ↔ failed = true := by
  cases failed <;> simp [exitCodeOf]

theorem exitCodeOf_eq_zero_or_one (failed : Bool) :
    exitCodeOf failed = 0 ∨ exitCodeOf failed = 1 := by
  cases failed <;> simp [exitCodeOf]

end Several

/-! ### Answers -/

/-- With `--json`, the command gives these entries and this exit code, and prints nothing else. -/
def Lists (w : Workspace) (ids : Nat → IdSource) (root : Option Path) (ps : List Path)
    (entries : List Json) (exitCode : Nat) : Prop :=
  Command.run w ids (.analyze ps true root)
    = .ok { exitCode := exitCode, json := some (.arr entries) }

/-- Without `--json`, the command prints these tables and complaints and gives this exit code. -/
def Prints (w : Workspace) (ids : Nat → IdSource) (root : Option Path) (ps : List Path)
    (console : List Output) (errors : List String) (exitCode : Nat) : Prop :=
  Command.run w ids (.analyze ps false root)
    = .ok { exitCode := exitCode, console := console, errors := errors }

theorem lists_outcomes {ids : Nat → IdSource} {ps : List Path} {js : List Json}
    (h : (outcomes w ids root 0 ps).mapM outcomeToJson = .ok js) :
    Lists w ids root ps js (exitCodeOf ((outcomes w ids root 0 ps).any hasFailed)) := by
  simp [Lists, Command.run, answerOf, h]

theorem prints_outcomes (w : Workspace) (root : Option Path) (ids : Nat → IdSource)
    (ps : List Path) :
    Prints w ids root ps ((outcomes w ids root 0 ps).filterMap outcomeTable?)
      ((outcomes w ids root 0 ps).filterMap outcomeError?)
      (exitCodeOf ((outcomes w ids root 0 ps).any hasFailed)) := rfl

/-- Some file among others fails exactly when it fails alone. -/
theorem any_hasFailed_outcomes (ids ids' : Nat → IdSource) (next : Nat) (ps : List Path) :
    (outcomes w ids root next ps).any hasFailed
      = ps.any fun p => (outcomes w ids' root 0 [p]).any hasFailed := by
  induction ps generalizing next with
  | nil => rfl
  | cons p ps ih =>
    have hfirst := any_hasFailed_eq (forall₂_outcomes w root ids ids' next 0 [p])
    rw [List.any_cons, ← ih (next + 1), ← hfirst]
    simp [outcomes]

theorem exitCode_of_lists {ids : Nat → IdSource} {ps : List Path} {js : List Json} {x : Nat}
    (h : Lists w ids root ps js x) :
    x = exitCodeOf ((outcomes w ids root 0 ps).any hasFailed) := by
  obtain ⟨ks, hks⟩ := exists_entries w root ids 0 ps
  have hlists := lists_outcomes hks
  rw [Lists, h] at hlists
  cases hlists
  rfl

theorem exitCode_of_prints {ids : Nat → IdSource} {ps : List Path} {tables : List Output}
    {errors : List String} {x : Nat} (h : Prints w ids root ps tables errors x) :
    x = exitCodeOf ((outcomes w ids root 0 ps).any hasFailed) := by
  have hprints := prints_outcomes w root ids ps
  rw [Prints, h] at hprints
  cases hprints
  rfl

theorem exists_lists (w : Workspace) (root : Option Path) (ids : Nat → IdSource) (p : Path) :
    ∃ b, outcomeToJson (p, unitOf w (ids 0) root p) = .ok b ∧
      Lists w ids root [p] [b] (exitCodeOf ((outcomes w ids root 0 [p]).any hasFailed)) := by
  obtain ⟨b, hb⟩ := exists_outcomeToJson (o := (p, unitOf w (ids 0) root p))
    fun _ hu => writable_of_unitOf hu
  exact ⟨b, hb, lists_outcomes (mapM_eq_ok_iff.mpr (.cons hb .nil))⟩

/-- Each path has an entry in its place, which is that of the path alone. -/
theorem forall₂_entries {ids : Nat → IdSource} (alone : Nat → IdSource) {next : Nat}
    {ps : List Path} {js : List Json}
    (h : (outcomes w ids root next ps).mapM outcomeToJson = .ok js) :
    List.Forall₂ (fun p a => a.get? "path" = some (.str p.text) ∧
      ∃ b y, Lists w alone root [p] [b] y ∧ SameEntry a b) ps js := by
  rw [mapM_eq_ok_iff] at h
  induction ps generalizing next js with
  | nil =>
    cases h
    exact .nil
  | cons p ps ih =>
    cases h with
    | cons ha hrest =>
      obtain ⟨b, hb, hlists⟩ := exists_lists w root alone p
      have hsame : SameOutcome (p, unitOf w (ids next) root p) (p, unitOf w (alone 0) root p) :=
        ⟨rfl, agree_unitOf _ _ p⟩
      exact .cons ⟨get?_path_of_outcomeToJson ha, b, _, hlists, hsame.sameEntry ha hb⟩ (ih hrest)

/-- The exit code tells that some file fails alone. -/
theorem exitCode_eq_one_iff (ids alone : Nat → IdSource) (ps : List Path) :
    exitCodeOf ((outcomes w ids root 0 ps).any hasFailed) = 1 ↔
      ∃ p ∈ ps, exitCodeOf ((outcomes w alone root 0 [p]).any hasFailed) = 1 := by
  simp only [exitCodeOf_eq_one_iff, any_hasFailed_outcomes ids alone 0 ps, List.any_eq_true]

theorem exitCode_eq_one_iff_lists (ids alone : Nat → IdSource) (ps : List Path) :
    exitCodeOf ((outcomes w ids root 0 ps).any hasFailed) = 1 ↔
      ∃ p ∈ ps, ∃ b, Lists w alone root [p] [b] 1 := by
  rw [exitCode_eq_one_iff ids alone]
  refine exists_congr fun p => and_congr_right fun _ => ?_
  constructor
  · intro hx
    obtain ⟨b, -, hlists⟩ := exists_lists w root alone p
    exact ⟨b, hx ▸ hlists⟩
  · rintro ⟨b, hb⟩
    exact (exitCode_of_lists hb).symm

theorem exitCode_eq_one_iff_prints (ids alone : Nat → IdSource) (ps : List Path) :
    exitCodeOf ((outcomes w ids root 0 ps).any hasFailed) = 1 ↔
      ∃ p ∈ ps, ∃ tables errors, Prints w alone root [p] tables errors 1 := by
  rw [exitCode_eq_one_iff ids alone]
  refine exists_congr fun p => and_congr_right fun _ => ?_
  constructor
  · intro hx
    exact ⟨_, _, hx ▸ prints_outcomes w root alone [p]⟩
  · rintro ⟨tables, errors, hb⟩
    exact (exitCode_of_prints hb).symm

/-- The outcomes for the paths of two lists are those for the one and for the other. -/
theorem forall₂_outcomes_append (w : Workspace) (root : Option Path)
    (ids ids₁ ids₂ : Nat → IdSource) (ps qs : List Path) :
    List.Forall₂ SameOutcome (outcomes w ids root 0 (ps ++ qs))
      (outcomes w ids₁ root 0 ps ++ outcomes w ids₂ root 0 qs) := by
  rw [outcomes_append]
  exact List.rel_append (forall₂_outcomes ..) (forall₂_outcomes ..)

end CodeOutline.CommandLine
