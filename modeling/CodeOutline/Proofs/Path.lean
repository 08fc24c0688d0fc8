/-
CodeOutline/Proofs/Path.lean

Extensions of files.

A path that is read off a text has names without slashes, and the extension of a file is cut off
its name behind the last dot.  So an extension never holds a slash or a dot
(`notMem_extension_ofString`).  A text without slashes is one name, and if it ends with a dot and
a text without dots behind it, and does not begin with that dot, the lowercase form of that text
is its extension (`extension_ofString`).
-/
import CodeOutline.Path
import CodeOutline.Proofs.Text.Lines
import CodeOutline.Proofs.Text.Lowercase

namespace CodeOutline.Path

/-! ### Names -/

theorem slash_notMem_of_mem_parts {s p : String} (h : p ∈ (ofString s).parts) :
    '/' ∉ p.toList := by
  obtain ⟨part, hpart, rfl⟩ := List.mem_map.mp (List.mem_of_mem_filter h)
  rw [String.toList_ofList]
  exact Text.sep_notMem_of_mem_splitOn hpart

theorem slash_notMem_name (s : String) : '/' ∉ (ofString s).name.toList := by
  rw [name, List.getLastD_eq_getLast?]
  rcases h : (ofString s).parts.getLast? with - | last
  · simp
  · exact slash_notMem_of_mem_parts (List.mem_of_getLast? h)

/-- A text without slashes is one name, if it says anything. -/
theorem name_ofString {s : String} (hslash : '/' ∉ s.toList) (hempty : s ≠ "") (hdot : s ≠ ".") :
    (ofString s).name = s := by
  have hparts : (ofString s).parts = [s] := by
    simp [ofString, Text.splitOn_of_notMem hslash, hempty, hdot]
  rw [name, hparts, List.getLastD_cons, List.getLastD_nil]

/-! ### Extensions -/

theorem splitAtLastDot_eq {stem ext : List Char} (h : '.' ∉ ext) :
    splitAtLastDot (String.ofList (stem ++ '.' :: ext)) = (stem ++ ['.'], ext) := by
  have hrun : ∀ c ∈ ext.reverse, (c != '.') = true := by
    intro c hc
    rw [bne_iff_ne]
    rintro rfl
    exact h (List.mem_reverse.mp hc)
  have hback : (stem ++ '.' :: ext).reverse = ext.reverse ++ '.' :: stem.reverse := by simp
  simp only [splitAtLastDot, String.toList_ofList, hback]
  rw [List.dropWhile_append_of_pos hrun, List.takeWhile_append_of_pos hrun,
    List.dropWhile_cons_of_neg (by simp), List.takeWhile_cons_of_neg (by simp)]
  simp

theorem dot_notMem_splitAtLastDot (name : String) : '.' ∉ (splitAtLastDot name).2 := by
  intro h
  have hrun := List.mem_takeWhile_imp (List.mem_reverse.mp h)
  simp at hrun

theorem mem_of_mem_splitAtLastDot {name : String} {c : Char}
    (h : c ∈ (splitAtLastDot name).2) : c ∈ name.toList :=
  List.mem_reverse.mp ((List.takeWhile_sublist _).subset (List.mem_reverse.mp h))

/-- An extension holds neither a dot nor a slash. -/
theorem notMem_extension_ofString (s : String) :
    '.' ∉ (ofString s).extension.toList ∧ '/' ∉ (ofString s).extension.toList := by
  rw [extension]
  split
  · next ext hcut =>
    have hext : (splitAtLastDot (ofString s).name).2 = ext := by rw [hcut]
    rw [String.toList_ofList, Text.mem_lower_iff (by decide) (by decide),
      Text.mem_lower_iff (by decide) (by decide), ← hext]
    exact ⟨dot_notMem_splitAtLastDot _,
      fun h => slash_notMem_name s (mem_of_mem_splitAtLastDot h)⟩
  · simp

/-- The extension of a file is the lowercase form of what stands behind the last dot of its name,
if anything stands before that dot. -/
theorem extension_ofString {stem ext : String} (hstem : stem ≠ "") (hslash : '/' ∉ stem.toList)
    (hext : '.' ∉ ext.toList ∧ '/' ∉ ext.toList) :
    (ofString (stem ++ "." ++ ext)).extension = String.ofList (Text.lower ext.toList) := by
  have htext : (stem ++ "." ++ ext).toList = stem.toList ++ '.' :: ext.toList := by
    simp [String.toList_append]
  have hstem' : stem.toList ≠ [] := by simpa using hstem
  have hname : (ofString (stem ++ "." ++ ext)).name
      = String.ofList (stem.toList ++ '.' :: ext.toList) := by
    rw [← htext, String.ofList_toList]
    refine name_ofString ?_ ?_ ?_
    · simp [htext, hslash, hext.2]
    · intro h
      simpa [htext] using congrArg String.toList h
    · intro h
      have hlength := congrArg (fun s => s.toList.length) h
      have hpos := List.length_pos_iff.mpr hstem'
      simp only [htext, List.length_append, List.length_cons] at hlength
      simp at hlength
      omega
  rw [extension, hname, splitAtLastDot_eq hext.1]
  rcases hcs : stem.toList with - | ⟨c, cs⟩
  · exact absurd hcs hstem'
  · -- something stands before the dot
    cases cs <;> rfl

end CodeOutline.Path
