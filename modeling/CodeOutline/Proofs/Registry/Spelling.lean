/-
CodeOutline/Proofs/Registry/Spelling.lean

The forms in which an extension is registered, looked up and asked for.

Three functions bring an extension into a form: registering trims it, drops the dots in front and
takes the lowercase form (`normal`); asking for membership does the same without trimming
(`bare`); looking a file up takes the lowercase form of what stands behind the last dot of its
name.  A registration does what it is meant for only where the three meet.

The extension of a file holds neither a dot nor a slash, so an entry with one of these in its key
is never found, and the registry answers for every file as it did before.  Every other entry is
found for every name that ends with a dot and any spelling of its key, since a lowercase form is
its own (`reaches_iff_isPlain`).

Trimming leaves something out exactly of a text with blanks at an end, and then the two forms
differ in length (`bare_eq_normal_iff`).  So membership is what registering says it is exactly for
extensions without blanks at their ends (`contains_agrees_iff`).
-/
import CodeOutline.Proofs.Path
import CodeOutline.Proofs.Registry

namespace CodeOutline

namespace Registry

variable {α : Type}

/-! ### One registration -/

/-- An extension of which something is left is registered in any registry, under its form. -/
theorem register_eq_ok_iff_of_maker {r r' : Registry α} {extension : String} {maker : Path → α} :
    r.register (some extension) (some maker) = .ok r' ↔
      Text.allBlank (normal extension) = false ∧
      r' = ⟨Assoc.insert (· == ·) (normal extension) maker r.entries⟩ := by
  have hcall : r.register (some extension) (some maker) = .ok r' ↔ _ :=
    register_eq_ok_iff (c := ⟨some extension, some maker⟩)
  rw [hcall, Call.entered?]
  rcases h : Text.allBlank (normal extension) with - | -
  · simp only [h, Bool.false_eq_true, if_false, Option.some.injEq, exists_eq_left', true_and]
  · simp only [h, if_true, reduceCtorEq, false_and, exists_false]

/-- A file is answered for by the entry that has been written last, if it has its key for an
extension, and as before otherwise. -/
theorem resolve_insert (r : Registry α) (key : String) (maker : Path → α) (path : Path)
    (root : Option Path) :
    Registry.resolve ⟨Assoc.insert (· == ·) key maker r.entries⟩ path root =
      if path.extension = key then some (maker (root.getD path.parent))
      else r.resolve path root := by
  rw [resolve]
  split
  · next h => rw [h, Assoc.find?_insert_self, Option.map_some]
  · next h => rw [Assoc.find?_insert_of_ne h, resolve]

/-! ### Files that an entry answers for -/

/-- A text that can be the extension of a file, as far as its characters go. -/
def IsPlain (key : String) : Prop := '.' ∉ key.toList ∧ '/' ∉ key.toList

/-- For some file whose name ends with a dot and a key, what the maker makes is found. -/
def Reaches (r : Registry α) (maker : Path → α) (key : String) : Prop :=
  ∃ front : String, ∀ root : Option Path,
    r.resolve (Path.ofString (front ++ "." ++ key)) root =
      some (maker (root.getD (Path.ofString (front ++ "." ++ key)).parent))

/-- The form in which an extension is kept is its own lowercase form. -/
theorem lower_normal (extension : String) :
    Text.lower (normal extension).toList = (normal extension).toList := by
  rw [normal, String.toList_ofList, undotted, Text.lower_lower]

/-- A spelling of a plain key is plain. -/
theorem isPlain_of_lower {key spelling : String} (hkey : IsPlain key)
    (h : Text.lower spelling.toList = key.toList) : IsPlain spelling := by
  rw [IsPlain, ← h, Text.mem_lower_iff (by decide) (by decide),
    Text.mem_lower_iff (by decide) (by decide)] at hkey
  exact hkey

/-- After a registration with a plain key, the maker is asked for every file whose name ends with
a dot and a spelling of the key. -/
theorem resolve_of_isPlain {r r' : Registry α} {extension : String} {maker : Path → α}
    (h : r.register (some extension) (some maker) = .ok r') (hplain : IsPlain (normal extension))
    {stem spelling : String} (hstem : stem ≠ "") (hslash : '/' ∉ stem.toList)
    (hspelling : Text.lower spelling.toList = (normal extension).toList) (root : Option Path) :
    r'.resolve (Path.ofString (stem ++ "." ++ spelling)) root =
      some (maker (root.getD (Path.ofString (stem ++ "." ++ spelling)).parent)) := by
  have hextension : (Path.ofString (stem ++ "." ++ spelling)).extension = normal extension := by
    rw [Path.extension_ofString hstem hslash (isPlain_of_lower hplain hspelling), hspelling,
      String.ofList_toList]
  rw [(register_eq_ok_iff_of_maker.mp h).2, resolve_insert, if_pos hextension]

/-- A registration with a key that is not plain changes no answer. -/
theorem resolve_of_not_isPlain {r r' : Registry α} {extension : String} {maker : Path → α}
    (h : r.register (some extension) (some maker) = .ok r') (hplain : ¬ IsPlain (normal extension))
    (file : String) (root : Option Path) :
    r'.resolve (Path.ofString file) root = r.resolve (Path.ofString file) root := by
  have hextension : (Path.ofString file).extension ≠ normal extension := by
    intro e
    exact hplain (e ▸ Path.notMem_extension_ofString file)
  rw [(register_eq_ok_iff_of_maker.mp h).2, resolve_insert, if_neg hextension]

/-- An extension of which something is left is registered after any calls.  Whatever these were,
there is a file that the registration reaches exactly if the key holds neither a dot nor a slash.
Then it reaches every file whose name has something in front of a dot and behind it the key in any
letter case; otherwise every file is answered for as before. -/
theorem reaches_iff_isPlain {extension : String}
    (haccepted : Text.allBlank (normal extension) = false) (maker : Path → α) :
    (∀ cs : List (Call α), ∃ r', (run cs).register (some extension) (some maker) = .ok r') ∧
    ((∀ (cs : List (Call α)) (r' : Registry α),
        (run cs).register (some extension) (some maker) = .ok r' →
        r'.Reaches maker (normal extension)) ↔ IsPlain (normal extension)) ∧
    ∀ (cs : List (Call α)) (r' : Registry α),
      (run cs).register (some extension) (some maker) = .ok r' →
      (IsPlain (normal extension) →
        ∀ stem spelling : String, stem ≠ "" → '/' ∉ stem.toList →
        Text.lower spelling.toList = (normal extension).toList → ∀ root : Option Path,
        r'.resolve (Path.ofString (stem ++ "." ++ spelling)) root =
          some (maker (root.getD (Path.ofString (stem ++ "." ++ spelling)).parent))) ∧
      (¬ IsPlain (normal extension) → ∀ (file : String) (root : Option Path),
        r'.resolve (Path.ofString file) root = (run cs).resolve (Path.ofString file) root) := by
  have hregistered : ∀ cs : List (Call α),
      ∃ r', (run cs).register (some extension) (some maker) = .ok r' :=
    fun cs => ⟨_, register_eq_ok_iff_of_maker.mpr ⟨haccepted, rfl⟩⟩
  refine ⟨hregistered, ⟨fun hreaches => ?_, fun hplain cs r' h => ?_⟩, fun cs r' h =>
    ⟨fun hplain stem spelling hstem hslash hspelling root =>
      resolve_of_isPlain h hplain hstem hslash hspelling root,
    fun hplain file root => resolve_of_not_isPlain h hplain file root⟩⟩
  · -- in a registry with no other entry nothing would be found
    by_contra hplain
    obtain ⟨r', h⟩ := hregistered []
    obtain ⟨front, hfront⟩ := hreaches [] r' h
    have hnone := hfront none
    rw [resolve_of_not_isPlain h hplain] at hnone
    cases hnone
  · have hstem : '/' ∉ "a".toList := by decide
    exact ⟨"a", resolve_of_isPlain h hplain (by decide) hstem (lower_normal extension)⟩

theorem reaches_iff_isPlain_upper :
    Text.allBlank (normal " ..PY") = false ∧ ∃ r' : Registry Nat,
      (run [⟨some "gz", some fun _ => 1⟩]).register (some " ..PY") (some fun _ => 2) = .ok r' ∧
      r'.resolve (Path.ofString "m.Py") none = some 2 := by
  have hkey : normal " ..PY" = "py" := rfl
  have haccepted : Text.allBlank (normal " ..PY") = false := by rw [hkey]; decide
  have hplain : IsPlain (normal " ..PY") := by rw [hkey, IsPlain]; decide
  have hspelling : Text.lower "Py".toList = (normal " ..PY").toList := by
    rw [hkey]; rfl
  have hslash : '/' ∉ "m".toList := by decide
  obtain ⟨hregistered, -, hfiles⟩ := reaches_iff_isPlain haccepted (fun _ => 2)
  obtain ⟨r', h⟩ := hregistered [⟨some "gz", some fun _ => 1⟩]
  exact ⟨haccepted, r', h, (hfiles _ r' h).1 hplain "m" "Py" (by decide) hslash hspelling none⟩

/-- An extension with a dot inside is registered and never found. -/
theorem not_reaches_innerDot :
    ∃ r' : Registry Unit, (run []).register (some "tar.gz") (some fun _ => ()) = .ok r' ∧
      r'.extensions = ["tar.gz"] ∧ ¬ r'.Reaches (fun _ => ()) (normal "tar.gz") := by
  have hkey : normal "tar.gz" = "tar.gz" := rfl
  have haccepted : Text.allBlank (normal "tar.gz") = false := by rw [hkey]; decide
  have hplain : ¬ IsPlain (normal "tar.gz") := by rw [hkey, IsPlain]; decide
  obtain ⟨r', h⟩ : ∃ r' : Registry Unit,
      (run []).register (some "tar.gz") (some fun _ => ()) = .ok r' :=
    ⟨_, register_eq_ok_iff_of_maker.mpr ⟨haccepted, rfl⟩⟩
  refine ⟨r', h, ?_, ?_⟩
  · rw [(register_eq_ok_iff_of_maker.mp h).2, hkey]
    exact List.mergeSort_singleton _
  · rintro ⟨front, hfront⟩
    have hnone := hfront none
    rw [resolve_of_not_isPlain h hplain] at hnone
    cases hnone

/-! ### Membership -/

/-- The form in which membership is asked for. -/
def bare (extension : String) : String := String.ofList (undotted extension.toList)

theorem contains_iff {r : Registry α} {extension : String} :
    r.contains extension = true ↔ bare extension ∈ Assoc.keys r.entries := by
  rw [contains, Assoc.isSome_find?_iff, bare]

/-- Of a text with blanks at an end, of which more than dots and blanks is left, the lowercase form
is longer than that of the trimmed text. -/
theorem length_undotted_trim_lt {cs : List Char} (hleft : (Text.trim cs).dropWhile (· == '.') ≠ [])
    (hne : Text.trim cs ≠ cs) : (undotted (Text.trim cs)).length < (undotted cs).length := by
  obtain ⟨front, hfront, hcs⟩ := Text.exists_append_trimLeft cs
  obtain ⟨back, -, hback⟩ := Text.exists_trimRight_append (Text.trimLeft cs)
  have hsplit : cs = front ++ (Text.trim cs ++ back) := by
    rw [Text.trim, ← hback]
    exact hcs
  rcases front with - | ⟨b, front⟩
  · -- blanks behind: they stand behind what is left, too
    rw [List.nil_append] at hsplit
    have hdrop : cs.dropWhile (· == '.') = (Text.trim cs).dropWhile (· == '.') ++ back := by
      conv_lhs => rw [hsplit]
      rw [List.dropWhile_append, if_neg (by simpa using hleft)]
    have hpos : back ≠ [] := by
      rintro rfl
      rw [List.append_nil] at hsplit
      exact hne hsplit.symm
    rw [undotted, undotted, hdrop]
    apply Text.length_lower_lt_of_sublist (List.sublist_append_left _ _)
    have hlength := List.length_pos_iff.mpr hpos
    rw [List.length_append]
    omega
  · -- blanks in front: no dot behind them is dropped
    have hb : b ≠ '.' := by
      rintro rfl
      exact absurd (hfront '.' List.mem_cons_self) (by decide)
    have hdrop : cs.dropWhile (· == '.') = cs := by
      rw [hsplit, List.cons_append, List.dropWhile_cons_of_neg (by simpa using hb)]
    have hsub : ((Text.trim cs).dropWhile (· == '.')).Sublist (front ++ (Text.trim cs ++ back)) :=
      (List.dropWhile_sublist _).trans
        ((List.sublist_append_left _ _).trans (List.sublist_append_right _ _))
    have hcons := hsub.trans (List.sublist_cons_self b _)
    rw [← List.cons_append, ← hsplit] at hcons
    rw [undotted, undotted, hdrop]
    apply Text.length_lower_lt_of_sublist hcons
    have hlength := congrArg List.length hsplit
    rw [List.cons_append, List.length_cons] at hlength
    have hle := hsub.length_le
    omega

/-- Membership is asked for in the form of registering exactly if there are no blanks to trim. -/
theorem bare_eq_normal_iff {extension : String}
    (haccepted : Text.allBlank (normal extension) = false) :
    bare extension = normal extension ↔ Text.trim extension.toList = extension.toList := by
  constructor
  · intro h
    by_contra hne
    have hleft : (Text.trim extension.toList).dropWhile (· == '.') ≠ [] := by
      intro e
      rw [normal, undotted, e] at haccepted
      exact absurd haccepted (by decide)
    have hlt := length_undotted_trim_lt hleft hne
    have hlength := congrArg (fun s => s.toList.length) h
    simp only [bare, normal, String.toList_ofList] at hlength
    omega
  · intro h
    rw [normal, h, bare]

/-- An extension of which something is left is registered after any calls.  It replaces an entry,
so that there are as many as before, exactly if its key is there; and it is a member afterwards
exactly if it has no blanks at its ends, or an entry happens to be there already under the form in
which membership is asked for.  After all calls it is a member exactly if it would replace an
entry, and always one once it is registered, exactly if it has no blanks at its ends. -/
theorem contains_agrees_iff {extension : String}
    (haccepted : Text.allBlank (normal extension) = false) (maker : Path → α) :
    (∀ cs : List (Call α), ∃ r', (run cs).register (some extension) (some maker) = .ok r') ∧
    ((∀ (cs : List (Call α)) (r' : Registry α),
        (run cs).register (some extension) (some maker) = .ok r' →
        ((run cs).contains extension = true ↔ r'.size = (run cs).size) ∧
        r'.contains extension = true) ↔ Text.trim extension.toList = extension.toList) ∧
    ∀ (cs : List (Call α)) (r' : Registry α),
      (run cs).register (some extension) (some maker) = .ok r' →
      (r'.size = (run cs).size ↔ normal extension ∈ (run cs).extensions) ∧
      ((run cs).contains extension = true ↔ bare extension ∈ (run cs).extensions) ∧
      (r'.contains extension = true ↔
        Text.trim extension.toList = extension.toList ∨ bare extension ∈ (run cs).extensions) := by
  have hregistered : ∀ cs : List (Call α),
      ∃ r', (run cs).register (some extension) (some maker) = .ok r' :=
    fun cs => ⟨_, register_eq_ok_iff_of_maker.mpr ⟨haccepted, rfl⟩⟩
  have hstate : ∀ (cs : List (Call α)) (r' : Registry α),
      (run cs).register (some extension) (some maker) = .ok r' →
      (r'.size = (run cs).size ↔ normal extension ∈ (run cs).extensions) ∧
      ((run cs).contains extension = true ↔ bare extension ∈ (run cs).extensions) ∧
      (r'.contains extension = true ↔
        Text.trim extension.toList = extension.toList ∨
          bare extension ∈ (run cs).extensions) := by
    intro cs r' h
    rw [(register_eq_ok_iff_of_maker.mp h).2, size, size, Assoc.length_insert_eq_iff, contains_iff,
      contains_iff, (run cs).perm_extensions.mem_iff, (run cs).perm_extensions.mem_iff,
      Assoc.mem_keys_insert, bare_eq_normal_iff haccepted]
    exact ⟨.rfl, .rfl, or_comm⟩
  refine ⟨hregistered, ⟨fun hagree => ?_, fun htrim cs r' h => ?_⟩, hstate⟩
  · -- with nothing else registered, only the form of the extension itself can be a member
    obtain ⟨r', h⟩ := hregistered []
    have hnothing : bare extension ∉ (run ([] : List (Call α))).extensions := by
      simp [run, empty, extensions]
    exact ((hstate [] r' h).2.2.mp (hagree [] r' h).2).resolve_right hnothing
  · obtain ⟨hsize, hbefore, hafter⟩ := hstate cs r' h
    have hforms := (bare_eq_normal_iff haccepted).mpr htrim
    exact ⟨by rw [hbefore, hsize, hforms], hafter.mpr (.inl htrim)⟩

theorem contains_agrees_iff_dotted :
    Text.allBlank (normal "..Py") = false ∧ ∀ r' : Registry Nat,
      (run [⟨some "py ", some fun _ => 1⟩]).register (some "..Py") (some fun _ => 2) = .ok r' →
      ((run [⟨some "py ", some fun _ => 1⟩] : Registry Nat).contains "..Py" = true ↔
        r'.size = (run [⟨some "py ", some fun _ => 1⟩] : Registry Nat).size) ∧
      r'.contains "..Py" = true := by
  have haccepted : Text.allBlank (normal "..Py") = false := rfl
  have htrim : Text.trim "..Py".toList = "..Py".toList := by decide
  exact ⟨haccepted, (contains_agrees_iff haccepted fun _ => 2).2.1.mpr htrim _⟩

/-- An extension with a blank in front is no member right after it has been registered. -/
theorem contains_padded :
    ∃ r' : Registry Unit, (run []).register (some " xx") (some fun _ => ()) = .ok r' ∧
      r'.contains " xx" = false ∧ r'.register (some " xx") (some fun _ => ()) = .ok r' := by
  have hkey : normal " xx" = "xx" := rfl
  have haccepted : Text.allBlank (normal " xx") = false := by rw [hkey]; decide
  refine ⟨⟨[("xx", fun _ => ())]⟩, register_eq_ok_iff_of_maker.mpr ⟨haccepted, by rw [hkey]; rfl⟩,
    ?_, register_eq_ok_iff_of_maker.mpr ⟨haccepted, by rw [hkey]; rfl⟩⟩
  have hbare : bare " xx" = " xx" := rfl
  rw [Bool.eq_false_iff, ne_eq, contains_iff, hbare]
  simp

end Registry

end CodeOutline
