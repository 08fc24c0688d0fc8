/-
CodeOutline/Proofs/Python/Annotation.lean

What keeps an annotation from being written.

A tree may lack words and parts that the text of an annotation needs, but the text does not depend
on where a node stands: no defect of a place is among the errors of a wording (`Placeless`).  Every
way to put wordings together keeps this, hence it holds of a node if it holds of its children
(`placeless_nodeWording`), and of every tree (`errorsIn_render`).
-/
import CodeOutline.Proofs.Outcome
import CodeOutline.Python.Annotation

namespace CodeOutline

open Outcome

/-- Whether a defect of a tree is that a node has no place in the source. -/
def TreeDefect.isOfPlace : TreeDefect → Bool
  | .noPart _ part => part == "lineno"
  | _ => false

namespace Python.Annotation

/-! ### Wordings -/

namespace Wording

/-- A wording does not fail for want of a place. -/
def Placeless (w : Wording) : Prop := ErrorsIn (fun d => d.isOfPlace = false) w

@[simp, grind .] theorem placeless_ok (pieces : List (Option String)) : Placeless (.ok pieces) :=
  errorsIn_ok pieces

@[simp, grind .] theorem placeless_word (w : Option String) : (word w).Placeless := placeless_ok _

@[simp, grind .] theorem placeless_piece (s : String) : (piece s).Placeless := placeless_word _

@[grind ←] theorem placeless_error {d : TreeDefect} (h : d.isOfPlace = false) :
    Placeless (.error d) := by
  rintro _ ⟨⟩
  exact h

@[grind ←] theorem placeless_concat {ws : List Wording} (h : ∀ w ∈ ws, w.Placeless) :
    (concat ws).Placeless := (errorsIn_mapM h).map _

theorem forall_mem_intersperse {α : Type} {P : α → Prop} {sep : α} {xs : List α} (hsep : P sep)
    (h : ∀ x ∈ xs, P x) : ∀ x ∈ xs.intersperse sep, P x := by
  match xs with
  | [] => exact h
  | [x] => exact h
  | x :: y :: ys =>
    obtain ⟨hx, hrest⟩ := List.forall_mem_cons.mp h
    rw [List.intersperse_cons_cons, List.forall_mem_cons, List.forall_mem_cons]
    exact ⟨hx, hsep, forall_mem_intersperse hsep hrest⟩

@[grind ←] theorem placeless_separate {s : String} {ws : List Wording} (h : ∀ w ∈ ws, w.Placeless) :
    (separate s ws).Placeless :=
  placeless_concat (forall_mem_intersperse (placeless_piece s) h)

@[grind ←] theorem placeless_commas {ws : List Wording} (h : ∀ w ∈ ws, w.Placeless) :
    (commas ws).Placeless := placeless_separate h

@[grind ←] theorem placeless_between {start stop : String} {w : Wording} (h : w.Placeless) :
    (between start stop w).Placeless :=
  placeless_concat (by simp [h])

@[grind ←] theorem placeless_enclose {own : Level} {setting : Setting} {w : Wording}
    (h : w.Placeless) : (enclose own setting w).Placeless := by
  unfold enclose
  split
  · exact placeless_between h
  · exact h

@[grind ←] theorem Placeless.map {w : Wording} (h : w.Placeless)
    (f : List (Option String) → List (Option String)) : Placeless (Except.map f w) :=
  ErrorsIn.map h f

end Wording

/-! ### Nodes -/

variable {ws vs : List Written}

/-- A node can be written, in every setting, without a place. -/
def Written.Placeless (w : Written) : Prop := ∀ setting, (w.write setting).Placeless

@[grind ←] theorem Written.Placeless.plain {w : Written} (h : w.Placeless) : w.plain.Placeless :=
  h _

@[grind ←] theorem Written.Placeless.atLevel {w : Written} (h : w.Placeless) (l : Level) :
    (w.atLevel l).Placeless := h _

@[grind .] theorem placeless_missing : missing.Placeless := Wording.placeless_error rfl

theorem forall_mem_inRole {P : Written → Prop} (h : ∀ w ∈ ws, P w) (role : String) :
    ∀ w ∈ inRole role ws, P w := fun w hw => h w (List.mem_of_mem_filter hw)

/-! #### Lists of children -/

section

variable (h : ∀ w ∈ ws, w.Placeless)
include h

theorem placeless_firstIn (role : String) (setting : Setting) :
    (firstIn role ws setting).Placeless := by
  unfold firstIn
  split
  · exact placeless_missing
  · next w hw => exact forall_mem_inRole h role w (List.mem_of_mem_head? hw) setting

theorem placeless_plain : ∀ w ∈ ws.map Written.plain, w.Placeless :=
  List.forall_mem_map.mpr fun w hw => h w hw _

theorem placeless_after (s role : String) (setting : Setting) :
    ∀ w ∈ after s role ws setting, w.Placeless := by
  unfold after
  split
  · simp [placeless_firstIn h]
  · simp

@[grind ←] theorem placeless_tupleItems : (tupleItems ws).Placeless := by
  unfold tupleItems
  split
  · next w =>
    have hw := (h w List.mem_cons_self).plain
    exact Wording.placeless_concat (by simp [hw])
  · exact Wording.placeless_commas (placeless_plain h)

theorem placeless_risingOperands (l : Level) : ∀ w ∈ risingOperands l ws, w.Placeless := by
  induction ws generalizing l with
  | nil => simp [risingOperands]
  | cons w ws ih =>
    obtain ⟨hw, hws⟩ := List.forall_mem_cons.mp h
    exact List.forall_mem_cons.mpr ⟨hw _, ih hws _⟩

theorem placeless_comparisonTail (os : List Written) :
    ∀ w ∈ comparisonTail os ws, w.Placeless := by
  induction ws generalizing os with
  | nil => cases os <;> simp [comparisonTail]
  | cons w ws ih =>
    obtain ⟨hw, hws⟩ := List.forall_mem_cons.mp h
    cases os with
    | nil => simp [comparisonTail]
    | cons o os =>
      refine List.forall_mem_cons.mpr ⟨?_, List.forall_mem_cons.mpr ⟨hw _, ih hws os⟩⟩
      split
      · exact Wording.placeless_piece _
      · exact Wording.placeless_error rfl

theorem placeless_entries (hvs : ∀ w ∈ vs, w.Placeless) : ∀ w ∈ entries ws vs, w.Placeless := by
  induction ws generalizing vs with
  | nil => cases vs <;> simp [entries]
  | cons k ks ih =>
    obtain ⟨hk, hks⟩ := List.forall_mem_cons.mp h
    cases vs with
    | nil => simp [entries]
    | cons v vs =>
      obtain ⟨hv, hvs⟩ := List.forall_mem_cons.mp hvs
      refine List.forall_mem_cons.mpr ⟨?_, ih hks hvs⟩
      split
      · exact Wording.placeless_concat (by simp [hv.atLevel])
      · exact Wording.placeless_concat (by simp [hk.plain, hv.plain])

theorem placeless_withDefaults (hvs : ∀ w ∈ vs, w.Placeless) :
    ∀ w ∈ withDefaults ws vs, w.Placeless := by
  induction ws generalizing vs with
  | nil => cases vs <;> simp [withDefaults]
  | cons p ps ih =>
    obtain ⟨hp, hps⟩ := List.forall_mem_cons.mp h
    cases vs with
    | nil => simp [withDefaults]
    | cons d ds =>
      obtain ⟨hd, hds⟩ := List.forall_mem_cons.mp hvs
      refine List.forall_mem_cons.mpr ⟨?_, ih hps hds⟩
      split
      · exact hp.plain
      · exact Wording.placeless_concat (by simp [hp.plain, hd.plain])

end

theorem placeless_positional {ps : List Wording} (h : ∀ w ∈ ps, w.Placeless) (unnamed : Nat) :
    ∀ w ∈ positional unnamed ps, w.Placeless := by
  unfold positional
  split
  · exact h
  · next last before e =>
    -- what is turned round is the beginning of the list
    have htake : ∀ w ∈ last :: before, w.Placeless := by
      rw [← e]
      exact fun w hw => h w (List.mem_of_mem_take (List.mem_reverse.mp hw))
    obtain ⟨hlast, hbefore⟩ := List.forall_mem_cons.mp htake
    have hmarked : (Wording.concat [last, .piece ", /"]).Placeless :=
      Wording.placeless_concat (by simp [hlast])
    exact List.forall_mem_append.mpr ⟨List.forall_mem_append.mpr
      ⟨fun w hw => hbefore w (List.mem_reverse.mp hw), List.forall_mem_singleton.mpr hmarked⟩,
      fun w hw => h w (List.mem_of_mem_drop hw)⟩

theorem placeless_spreadParameter {w : Written} (h : w.Placeless) :
    (spreadParameter w).Placeless := by
  unfold spreadParameter
  split
  · exact Wording.placeless_error rfl
  · exact (h _).map _

@[grind ←] theorem placeless_parameters (h : ∀ w ∈ ws, w.Placeless) :
    (parameters ws).Placeless := by
  have hrole := forall_mem_inRole h
  have hnone : Written.Placeless ⟨.gap "defaults", fun _ => missing⟩ := fun _ => placeless_missing
  have hdefaults : ∀ k, ∀ w ∈ List.replicate k (⟨.gap "defaults", fun _ => missing⟩ : Written)
      ++ inRole "defaults" ws, w.Placeless := fun k => List.forall_mem_append.mpr
    ⟨fun w hw => (List.mem_replicate.mp hw).2 ▸ hnone, hrole "defaults"⟩
  have hfirst := fun k => placeless_withDefaults
    (List.forall_mem_append.mpr ⟨hrole "posonlyargs", hrole "args"⟩) (hdefaults k)
  have hnamed := placeless_withDefaults (hrole "kwonlyargs") (hrole "kw_defaults")
  refine Wording.placeless_commas (List.forall_mem_append.mpr ⟨List.forall_mem_append.mpr
    ⟨List.forall_mem_append.mpr ⟨placeless_positional (hfirst _) _, ?_⟩, hnamed⟩, ?_⟩)
  · -- the star, alone or with a name
    split
    · refine List.forall_mem_singleton.mpr (Wording.placeless_concat ?_)
      simp [placeless_firstIn h]
    · split
      · simp
      · simp
  · exact List.forall_mem_map.mpr fun w hw => placeless_spreadParameter (hrole "kwarg" w hw)

@[grind ←] theorem placeless_clauses (h : ∀ w ∈ ws, w.Placeless) : (clauses ws).Placeless :=
  Wording.placeless_concat (placeless_plain (forall_mem_inRole h _))

@[grind .] theorem placeless_constant (n : Node) : (constant n).Placeless := by
  unfold constant
  have hmarked : ∀ s : String, (Wording.concat
      ((if n.text "kind" == "u" then [.piece "u"] else []) ++ [.piece s])).Placeless := by
    intro s
    apply Wording.placeless_concat
    split <;> simp
  dsimp only
  split
  · exact Wording.placeless_piece _
  · exact hmarked _
  · exact hmarked _

theorem placeless_comprehension {n : Node} (hkind : n.kind = "comprehension")
    (h : ∀ w ∈ ws, w.Placeless) (setting : Setting) : (nodeWording n ws setting).Placeless := by
  have hfirst := placeless_firstIn h
  simp only [nodeWording, hkind]
  refine Wording.placeless_concat (List.forall_mem_append.mpr ⟨by simp [hfirst], ?_⟩)
  -- the conditions, each after a piece
  refine List.forall_mem_flatMap.mpr fun w hw => ?_
  simp [(forall_mem_inRole h "ifs" w hw).atLevel]

/-- A node can be written without a place if its children can. -/
theorem placeless_nodeWording (n : Node) (h : ∀ w ∈ ws, w.Placeless) (setting : Setting) :
    (nodeWording n ws setting).Placeless := by
  by_cases hkind : n.kind = "comprehension"
  · exact placeless_comprehension hkind h setting
  have hfirst := placeless_firstIn h
  have hafter := placeless_after h
  have hrole := forall_mem_inRole h
  have hplain := fun role => placeless_plain (hrole role)
  unfold nodeWording
  dsimp only
  -- any other node is put together from a few wordings, for each of which there is a lemma
  split
  all_goals
    grind [TreeDefect.isOfPlace, placeless_entries, placeless_risingOperands,
      placeless_comparisonTail]

mutual

theorem placeless_written (n : Node) : (written n).Placeless := by
  match n with
  | ⟨role, kind, range, attributes, cs⟩ =>
    exact placeless_nodeWording _ (placeless_writtenAll cs)

theorem placeless_writtenAll (ns : List Node) : ∀ w ∈ writtenAll ns, w.Placeless := by
  match ns with
  | [] => simp [writtenAll]
  | n :: ns =>
    rw [writtenAll]
    exact List.forall_mem_cons.mpr ⟨placeless_written n, placeless_writtenAll ns⟩

end

/-- Whatever keeps an annotation from being written, it is not that a node has no place. -/
theorem errorsIn_render (n : Node) : ErrorsIn (fun d => d.isOfPlace = false) (render n) := by
  refine ErrorsIn.bind ((placeless_written n).plain) fun pieces => ?_
  split
  · rintro _ ⟨⟩
    rfl
  · exact errorsIn_ok _

end Python.Annotation

end CodeOutline
