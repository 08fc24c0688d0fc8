/-
CodeOutline/Proofs/Metadata/Lookup.lean

Looking up a fact in metadata that was written entry by entry.

Of the entries with one key the last one is found (`get?_ofEntries_append_of_notMem`), and entries
with other keys do not matter, wherever they stand; so where no two entries have one key, all of
them are found (`get?_ofEntries_of_mem`).
-/
import CodeOutline.Metadata
import CodeOutline.Proofs.Assoc

namespace CodeOutline

namespace Metadata

/-- The keys of entries as metadata has them. -/
def textKeys (es : List (Scalar × Value)) : List String := es.map (fun e => e.1.render)

theorem get?_ofEntries_append_of_notMem {key : String} {es new : List (Scalar × Value)}
    (h : key ∉ textKeys new) : get? (ofEntries (es ++ new)) key = get? (ofEntries es) key := by
  have hkeys : key ∉ Assoc.keys (new.map (fun e => (e.1.render, e.2))) := by
    simpa [Assoc.keys, textKeys] using h
  rw [get?, ofEntries, Assoc.ofList, List.map_append, Assoc.insertAll_append,
    Assoc.find?_insertAll_of_notMem hkeys]
  rfl

/-- A fact that is not written over is found. -/
theorem get?_ofEntries_cons_of_notMem (key : Scalar) {v : Value} {es : List (Scalar × Value)}
    (h : key.render ∉ textKeys es) :
    get? (ofEntries ((key, v) :: es)) key.render = some v := by
  rw [← List.singleton_append, get?_ofEntries_append_of_notMem h]
  exact Assoc.find?_insert_self key.render v []

/-- The fact that is written last is found. -/
theorem get?_ofEntries_concat (key : Scalar) (v : Value) (es : List (Scalar × Value)) :
    get? (ofEntries (es ++ [(key, v)])) key.render = some v := by
  rw [get?, ofEntries, Assoc.ofList, List.map_append, Assoc.insertAll_append]
  exact Assoc.find?_insert_self key.render v _

/-- Every fact is found where no two have one key. -/
theorem get?_ofEntries_of_mem {e : Scalar × Value} {es : List (Scalar × Value)}
    (hkeys : (textKeys es).Nodup) (h : e ∈ es) : get? (ofEntries es) e.1.render = some e.2 := by
  obtain ⟨front, back, rfl⟩ := List.append_of_mem h
  have hback : e.1.render ∉ textKeys back := by
    simp only [textKeys, List.map_append, List.map_cons] at hkeys
    exact (List.nodup_cons.mp (List.Nodup.of_append_right hkeys)).1
  rw [← List.singleton_append, ← List.append_assoc, get?_ofEntries_append_of_notMem hback,
    get?_ofEntries_concat]

theorem get?_ofEntries_of_notMem {key : String} {es : List (Scalar × Value)}
    (h : key ∉ textKeys es) : get? (ofEntries es) key = none := by
  rw [← List.nil_append es, get?_ofEntries_append_of_notMem h]
  rfl

end Metadata

end CodeOutline
