/-
CodeOutline/Proofs/Serialization.lean

Nothing is lost when definitions and units are written.

Whatever is made of texts and elementary metadata can be written, and what is written with ids is
equal exactly if all that is written of agrees, at any depth (`same_toJson_iff_alike`).  All units
that the converters give are of this kind.
-/
import CodeOutline.Proofs.Entity.Faithful
import CodeOutline.Proofs.Java.Writing
import CodeOutline.Proofs.Python.Writing

namespace CodeOutline

theorem Definition.exists_same_iff_alike {d e : Definition} (hd : AllElementary d.parts)
    (he : AllElementary e.parts) :
    ∃ j k, d.toJson true = .ok j ∧ e.toJson true = .ok k ∧ (j.Same k ↔ d.Alike e) := by
  obtain ⟨j, hj⟩ := hd.exists_of_hingesOn (hingesOn_toJson hd.allTokenFree true)
  obtain ⟨k, hk⟩ := he.exists_of_hingesOn (hingesOn_toJson he.allTokenFree true)
  exact ⟨j, k, hj, hk, tellsApart hd he j k hj hk⟩

theorem CodeUnit.exists_same_iff_alike {u v : CodeUnit} (hu : AllElementary u.parts)
    (hv : AllElementary v.parts) :
    ∃ j k, u.toJson true = .ok j ∧ v.toJson true = .ok k ∧ (j.Same k ↔ u.Alike v) := by
  obtain ⟨j, hj⟩ := hu.exists_of_hingesOn (hingesOn_toJson hu.allTokenFree true)
  obtain ⟨k, hk⟩ := hv.exists_of_hingesOn (hingesOn_toJson hv.allTokenFree true)
  exact ⟨j, k, hj, hk, tellsApart hu hv j k hj hk⟩

/-- Definitions of texts and elementary metadata can be written, and what is written of two of them
is equal exactly if they are alike.  So it is with units, and the units that the converters give
are made of texts and elementary metadata. -/
theorem same_toJson_iff_alike :
    (∀ d e : Definition, (∀ p ∈ d.parts, p.Regular Metadata.Elementary) →
      (∀ p ∈ e.parts, p.Regular Metadata.Elementary) →
      ∃ j k, d.toJson true = .ok j ∧ e.toJson true = .ok k ∧ (j.Same k ↔ d.Alike e)) ∧
    (∀ u v : CodeUnit, (∀ p ∈ u.parts, p.Regular Metadata.Elementary) →
      (∀ p ∈ v.parts, p.Regular Metadata.Elementary) →
      ∃ j k, u.toJson true = .ok j ∧ v.toJson true = .ok k ∧ (j.Same k ↔ u.Alike v)) ∧
    (∀ (ids : IdSource) (p : Parsed Java.Node) (u : CodeUnit),
      Java.convert ids (some p) = .ok u → ∀ q ∈ u.parts, q.Regular Metadata.Elementary) ∧
    ∀ (ids : IdSource) (workingDirectory : List String) (sourceRoot : Option Path)
      (p : Parsed Python.Node) (u : CodeUnit),
      Python.convert ids workingDirectory sourceRoot (some p) = .ok u →
      ∀ q ∈ u.parts, q.Regular Metadata.Elementary :=
  ⟨fun _ _ => Definition.exists_same_iff_alike, fun _ _ => CodeUnit.exists_same_iff_alike,
    fun _ _ _ => Java.elementary_of_convert, fun _ _ _ _ _ => Python.elementary_of_convert⟩

/-- A function whose metadata holds one flag. -/
def flagged (flag : Scalar) : Definition where
  id := "d1"
  name := "f"
  kind := .function
  scope := ⟨.function, .origin, .origin, [], []⟩
  position := .origin
  references := []
  documentation := none
  metadata := [("isAsync", .scalar flag)]

theorem allElementary_flagged {flag : Scalar} (h : flag.Elementary) :
    AllElementary (flagged flag).parts := by
  have hmetadata : Metadata.Elementary [("isAsync", .scalar flag)] :=
    ⟨List.nodup_singleton _, List.forall_mem_singleton.mpr (.scalar h)⟩
  refine Definition.forall_parts_iff.mpr ⟨⟨"d1", rfl⟩, Definition.Content.forall_parts_iff.mpr
    ⟨⟨"f", rfl⟩, ?_, by simp [flagged], by simp [flagged], hmetadata⟩⟩
  exact Scope.forall_parts_iff.mpr ⟨by simp [flagged], Metadata.elementary_nil⟩

/-- The truth value and the number one are written as different values. -/
theorem same_toJson_iff_alike_flagged :
    AllElementary (flagged (.bool true)).parts ∧ AllElementary (flagged (.int 1)).parts ∧
      ∃ j k, (flagged (.bool true)).toJson true = .ok j ∧
        (flagged (.int 1)).toJson true = .ok k ∧ ¬ j.Same k := by
  have htrue := @allElementary_flagged (.bool true) trivial
  have hone := @allElementary_flagged (.int 1) trivial
  obtain ⟨j, k, hj, hk, hsame⟩ := same_toJson_iff_alike.1 _ _ htrue hone
  refine ⟨htrue, hone, j, k, hj, hk, fun h => ?_⟩
  have hmetadata := (hsame.mp h).metadata
  simp [flagged, Metadata.alike_iff, Value.Alike] at hmetadata

end CodeOutline
