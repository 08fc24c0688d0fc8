/-
CodeOutline/Proofs/Python/LineNumbers.lean

Lines as the parser counts them, found in the index.

For the parser a line ends with a line feed, with a carriage return, or with both
(`sourceLines`).  An index knows line feeds only.  So the two count alike as far as every line ends
with a line feed, and a carriage return that stands alone makes the index count less from there on
(`count_lineFeed_textBefore_iff`).

The main statement says so of the lines of any text, and of its characters: they have the line and
column that the parser gives them exactly if the lines before theirs end with line feeds, and then a
node covers its own text (`places_of_sourceLines`).
-/
import CodeOutline.Proofs.Source.Column
import CodeOutline.Proofs.Source.Offset
import CodeOutline.Proofs.Source.Span
import Mathlib.Data.List.Infix

namespace CodeOutline

open Outcome Text.Utf8

/-! ### Where lines of the index begin -/

namespace LineIndex

variable {bs : Octets} {n k : Nat}

theorem length_startsFrom (start : Nat × Nat) (ls : List Octets) :
    (startsFrom start ls).length = ls.length := by
  induction ls generalizing start with
  | nil => rfl
  | cons l ls ih => rw [startsFrom, List.length_cons, List.length_cons, ih]

theorem eq_nil_of_endsLine {before line : Octets} (h : EndsLine (before ++ line))
    (hline : 10 ∉ line) : line = [] := by
  rcases List.eq_nil_or_concat line with hnil | ⟨init, last, rfl⟩
  · exact hnil
  · rw [List.concat_eq_append] at h hline
    rw [← List.append_assoc] at h
    rcases h with h | ⟨a, h⟩
    · simp at h
    · -- the line feed would be the last octet of the line
      have hlast := (List.append_inj' h rfl).2
      rw [hlast] at hline
      exact absurd (List.mem_append_right _ List.mem_cons_self) hline

/-- A line begins behind as many line feeds as there are lines before it. -/
theorem lineStart?_eq_some_iff :
    (ofSource bs).lineStart? (n + 1) = some k ↔
      ∃ before rest, bs = before ++ rest ∧ EndsLine before ∧ before.count 10 = n ∧
        before.length = k := by
  constructor
  · intro h
    rw [lineStart?_succ] at h
    obtain ⟨start, hstart, -⟩ := Option.map_eq_some_iff.mp h
    have hn : n < (lines bs).length := by
      rw [← length_startsFrom (0, 0)]
      exact (List.getElem?_eq_some_iff.mp hstart).1
    obtain ⟨before, rest, hbs, hends, hcount, -, hbegin⟩ :=
      exists_around_line (List.getElem?_eq_getElem hn) 0 0
    rw [List.append_assoc] at hbs
    refine ⟨before, _, hbs, hends, hcount, ?_⟩
    rw [← Nat.zero_add before.length]
    exact Option.some.inj (hbegin.symm.trans h)
  · rintro ⟨before, rest, rfl, hends, rfl, rfl⟩
    -- the offset is the beginning of its own line
    obtain ⟨whole, line, htake, -, hline, hat⟩ := lineOf_ofSource (before ++ rest) before.length
    rw [List.take_left] at htake
    have hnil : line = [] := eq_nil_of_endsLine (htake ▸ hends) hline
    rw [hnil, List.append_nil] at htake
    have hstart := lineStart?_lineOf (before ++ rest) before.length
    rwa [hat, ← htake] at hstart

theorem lt_lineCount_of_lineStart? {t : LineIndex} (h : t.lineStart? (n + 1) = some k) :
    n < t.lineCount := by
  rw [lineStart?_succ, Option.map_eq_some_iff] at h
  obtain ⟨start, hstart, -⟩ := h
  exact (List.getElem?_eq_some_iff.mp hstart).1

end LineIndex

/-! ### Positions in encoded texts -/

namespace Text.Utf8

theorem endsLine_encode_iff {cs : List Char} :
    EndsLine (encode cs) ↔ cs = [] ∨ ∃ a, cs = a ++ ['\n'] := by
  constructor
  · intro h
    have hdecode := LineIndex.endsLine_decode h
    rwa [decode_encode] at hdecode
  · rintro (rfl | ⟨a, rfl⟩)
    · exact .inl rfl
    · exact .inr ⟨encode a, encode_append a ['\n']⟩

end Text.Utf8

theorem Position.ofIndex_take {text : List Char} {i k : Nat} (h : i ≤ (text.take k).length) :
    ofIndex (text.take k) i = ofIndex text i := by
  rw [← ofIndex_append (b := text.drop k) h, List.take_append_drop]

namespace LineIndex

variable {text : List Char} {i k : Nat}

/-- A character has the position of its index, at the octets of those before it. -/
theorem position_encode (h : i ≤ text.length) :
    (ofSource (encode text)).position (encode (text.take i)).length = .ofIndex text i := by
  have hlength := List.length_take_of_le h
  rw [position_eq, take_encode, decode_encode, hlength, Position.ofIndex_take hlength.ge]

/-- It has this position at the end of its octets, too. -/
theorem lastPosition_encode (h : i < text.length) :
    (ofSource (encode text)).lastPosition (encode (text.take (i + 1))).length
      = .ofIndex text i := by
  have hlength : (text.take (i + 1)).length = i + 1 := List.length_take_of_le h
  have hle : (encode (text.take (i + 1))).length ≤ (encode text).length := by
    rw [← encode_take_append_drop text (i + 1), List.length_append]
    exact Nat.le_add_right _ _
  rw [lastPosition_eq hle, take_encode, decode_encode, hlength, Nat.add_sub_cancel,
    Position.ofIndex_take (by omega)]

/-- Beyond the octets before a character there are more characters than those before it. -/
theorem lt_offset_position (hi : i < text.length) (hk : (encode (text.take i)).length < k) :
    i < ((ofSource (encode text)).position k).offset := by
  obtain ⟨d, rfl⟩ := Nat.exists_eq_add_of_lt hk
  have hrest : (encode (text.drop i)).take (d + 1) ≠ [] := by
    rw [ne_eq, List.take_eq_nil_iff, not_or]
    exact ⟨Nat.succ_ne_zero d, encode_ne_nil (by rw [ne_eq, List.drop_eq_nil_iff]; omega)⟩
  have hpos := List.length_pos_iff.mpr (decode_ne_nil hrest)
  have hoffset : ((ofSource (encode text)).position ((encode (text.take i)).length + d + 1)).offset
      = i + (decode ((encode (text.drop i)).take (d + 1))).length := by
    rw [position_eq, ← encode_take_append_drop text i, Nat.add_assoc,
      List.take_length_add_append, decode_encode_append]
    simp only [Position.ofIndex, List.length_append, List.length_take_of_le (Nat.le_of_lt hi)]
  omega

end LineIndex

namespace Python

open LineIndex

/-! ### Lines of the parser -/

/-- The lines of a text as the parser counts them, each with its end: a line feed, a carriage
return, or a line feed right after a carriage return.  The last one has none. -/
def sourceLines : List Char → List (List Char)
  | [] => [[]]
  | '\r' :: '\n' :: cs => ['\r', '\n'] :: sourceLines cs
  | c :: cs =>
    if c = '\n' ∨ c = '\r' then [c] :: sourceLines cs else Text.joinFirst c (sourceLines cs)

/-- What stands before the line that has so many lines before it. -/
def textBefore (text : List Char) (n : Nat) : List Char := ((sourceLines text).take n).flatten

/-- Whether the first lines end with a line feed each, so that none ends with a carriage return
alone. -/
def EndWithLineFeeds (text : List Char) (n : Nat) : Prop :=
  ∀ l ∈ (sourceLines text).take n, l.getLast? = some '\n'

instance (text : List Char) (n : Nat) : Decidable (EndWithLineFeeds text n) :=
  inferInstanceAs (Decidable (∀ l ∈ (sourceLines text).take n, _))

theorem flatten_joinFirst (c : Char) (ls : List (List Char)) :
    (Text.joinFirst c ls).flatten = c :: ls.flatten := by
  cases ls <;> simp [Text.joinFirst]

/-- The lines hold the text. -/
theorem flatten_sourceLines (text : List Char) : (sourceLines text).flatten = text := by
  induction text using sourceLines.induct with
  | case1 => rfl
  | case2 cs ih => simp [sourceLines, ih]
  | case3 c cs hne hc ih =>
    rw [sourceLines, if_pos hc, List.flatten_cons, ih, List.singleton_append]
    exact hne
  | case4 c cs hne hc ih =>
    rw [sourceLines, if_neg hc, flatten_joinFirst, ih]
    exact hne

theorem textBefore_append (text : List Char) (n : Nat) :
    textBefore text n ++ ((sourceLines text).drop n).flatten = text := by
  rw [textBefore, ← List.flatten_append, List.take_append_drop, flatten_sourceLines]

/-- A line feed stands at the end of a line only. -/
theorem lineFeed_notMem_dropLast {text : List Char} :
    ∀ l ∈ sourceLines text, '\n' ∉ l.dropLast := by
  induction text using sourceLines.induct with
  | case1 => simp [sourceLines]
  | case2 cs ih => simpa [sourceLines] using ih
  | case3 c cs hne hc ih =>
    rw [sourceLines, if_pos hc]
    · simpa using ih
    · exact hne
  | case4 c cs hne hc ih =>
    rw [sourceLines, if_neg hc]
    · rw [not_or] at hc
      rcases e : sourceLines cs with - | ⟨l, ls⟩
      · simp [Text.joinFirst]
      · -- the character comes before all others of its line
        rw [e, List.forall_mem_cons] at ih
        rw [Text.joinFirst, List.forall_mem_cons]
        refine ⟨?_, ih.2⟩
        cases l with
        | nil => simp
        | cons d l =>
          rw [List.dropLast_cons_of_ne_nil (List.cons_ne_nil d l), List.mem_cons, not_or]
          exact ⟨Ne.symm hc.1, ih.1⟩
    · exact hne

theorem textBefore_mono (text : List Char) {m n : Nat} (h : m ≤ n) :
    textBefore text m <+: textBefore text n :=
  List.IsPrefix.flatten (List.take_prefix_take_left h)

theorem EndWithLineFeeds.mono {text : List Char} {m n : Nat} (h : EndWithLineFeeds text n)
    (hmn : m ≤ n) : EndWithLineFeeds text m :=
  fun l hl => h l ((List.take_prefix_take_left hmn).subset hl)

theorem count_lineFeed_line {l : List Char} (h : '\n' ∉ l.dropLast) :
    l.count '\n' = if l.getLast? = some '\n' then 1 else 0 := by
  rcases List.eq_nil_or_concat l with rfl | ⟨init, last, rfl⟩
  · rfl
  · rw [List.concat_eq_append] at h ⊢
    rw [List.dropLast_concat] at h
    rw [List.count_append, List.count_eq_zero_of_not_mem h, List.getLast?_concat, Nat.zero_add]
    by_cases hlast : last = '\n'
    · simp [hlast]
    · simp [hlast]

theorem count_lineFeed_flatten {ls : List (List Char)} (h : ∀ l ∈ ls, '\n' ∉ l.dropLast) :
    ls.flatten.count '\n' = ls.countP (fun l => l.getLast? = some '\n') := by
  induction ls with
  | nil => rfl
  | cons l ls ih =>
    rw [List.forall_mem_cons] at h
    rw [List.flatten_cons, List.count_append, count_lineFeed_line h.1, ih h.2, List.countP_cons,
      Nat.add_comm]
    simp only [decide_eq_true_eq]

variable {text : List Char} {n : Nat}

theorem count_lineFeed_textBefore_eq (text : List Char) (n : Nat) :
    (textBefore text n).count '\n'
      = ((sourceLines text).take n).countP (fun l => l.getLast? = some '\n') :=
  count_lineFeed_flatten fun l hl => lineFeed_notMem_dropLast l (List.mem_of_mem_take hl)

theorem count_lineFeed_textBefore_le (text : List Char) (n : Nat) :
    (textBefore text n).count '\n' ≤ n := by
  rw [count_lineFeed_textBefore_eq]
  exact List.countP_le_length.trans (List.length_take_le _ _)

/-- Before a line there are as many line feeds as lines if each of these ends with one. -/
theorem count_lineFeed_textBefore_iff (hn : n < (sourceLines text).length) :
    (textBefore text n).count '\n' = n ↔ EndWithLineFeeds text n := by
  have hlength : ((sourceLines text).take n).length = n := by
    rw [List.length_take, Nat.min_eq_left (Nat.le_of_lt hn)]
  have hall := List.countP_eq_length (p := fun l => l.getLast? = some '\n')
    (l := (sourceLines text).take n)
  rw [hlength] at hall
  rw [count_lineFeed_textBefore_eq, hall]
  simp only [decide_eq_true_eq, EndWithLineFeeds]

theorem textBefore_endsLine (h : EndWithLineFeeds text n) :
    textBefore text n = [] ∨ ∃ a, textBefore text n = a ++ ['\n'] := by
  unfold EndWithLineFeeds at h
  unfold textBefore
  rcases List.eq_nil_or_concat ((sourceLines text).take n) with e | ⟨init, last, e⟩
  · exact .inl (by rw [e, List.flatten_nil])
  · rw [List.concat_eq_append] at e
    rw [e] at h ⊢
    obtain ⟨a, rfl⟩ := List.getLast?_eq_some_iff.mp (h last (by simp))
    exact .inr ⟨init.flatten ++ a, by simp⟩

/-- The index has a line where the parser has it if all lines before end with line feeds. -/
theorem lineStart?_eq_iff (hn : n < (sourceLines text).length) :
    (ofSource (encode text)).lineStart? (n + 1) = some (encode (textBefore text n)).length ↔
      EndWithLineFeeds text n := by
  have hsplit := textBefore_append text n
  rw [lineStart?_eq_some_iff]
  constructor
  · rintro ⟨before, rest, htext, -, hcount, hlength⟩
    -- the text has one beginning of this length only
    rw [← hsplit, encode_append] at htext
    have hbefore := (List.append_inj htext hlength.symm).1
    rw [← hbefore, count_lineFeed_encode] at hcount
    exact (count_lineFeed_textBefore_iff hn).mp hcount
  · intro h
    refine ⟨encode (textBefore text n), encode ((sourceLines text).drop n).flatten, ?_, ?_, ?_, rfl⟩
    · rw [← encode_append, hsplit]
    · exact endsLine_encode_iff.mpr (textBefore_endsLine h)
    · rw [count_lineFeed_encode, (count_lineFeed_textBefore_iff hn).mpr h]

/-- A part of a line ends where it does in the text if all lines before end with line feeds. -/
theorem offsetOf_of_endWithLineFeeds (hn : n < (sourceLines text).length)
    (h : EndWithLineFeeds text n) (part : List Char) :
    offsetOf (.ofSource (encode text)) (n + 1) (encode part).length
      = .ok ((encode (textBefore text n ++ part)).length : Nat) := by
  rw [offsetOf, (lineStart?_eq_iff hn).mpr h, encode_append, List.length_append, Int.natCast_add]

/-! ### Characters in lines -/

/-- A character of a text, with the line that the parser finds it in. -/
structure SourceChar (text : List Char) where
  /-- The number of lines before. -/
  row : Nat
  before : List Char
  char : Char
  after : List Char
  line_eq : (sourceLines text)[row]? = some (before ++ char :: after)

namespace SourceChar

variable (p : SourceChar text)

/-- The octets of the line before the character. -/
def column : Nat := (encode p.before).length

/-- The octets of the line before the next character. -/
def endColumn : Nat := (encode (p.before ++ [p.char])).length

/-- The characters of the text before. -/
def index : Nat := (textBefore text p.row ++ p.before).length

/-- The position of the character, by the lines of the parser. -/
def position : Position where
  line := p.row + 1
  column := p.before.length + 1
  offset := p.index
  line_pos := by omega
  column_pos := by omega

/-- The range of a node from one character to another one. -/
def rangeTo (q : SourceChar text) : Range where
  line := p.row + 1
  column := p.column
  endLine := some (q.row + 1)
  endColumn := some q.endColumn

theorem row_lt : p.row < (sourceLines text).length := (List.getElem?_eq_some_iff.mp p.line_eq).1

/-- The line of the character stands in the text behind the lines before. -/
theorem prefix_text : textBefore text p.row ++ p.before ++ [p.char] <+: text := by
  obtain ⟨hrow, hline⟩ := List.getElem?_eq_some_iff.mp p.line_eq
  have htext := textBefore_append text p.row
  rw [List.drop_eq_getElem_cons hrow, hline] at htext
  exact ⟨p.after ++ ((sourceLines text).drop (p.row + 1)).flatten, by simpa using htext⟩

theorem take_index_succ :
    text.take (p.index + 1) = textBefore text p.row ++ p.before ++ [p.char] := by
  have h := List.prefix_iff_eq_take.mp p.prefix_text
  rw [List.length_append] at h
  exact h.symm

theorem take_index : text.take p.index = textBefore text p.row ++ p.before :=
  (List.prefix_iff_eq_take.mp ((List.prefix_append _ _).trans p.prefix_text)).symm

theorem getElem?_index : text[p.index]? = some p.char := by
  have hlength : p.index < (textBefore text p.row ++ p.before ++ [p.char]).length := by
    rw [List.length_append, ← index]
    exact Nat.lt_succ_self _
  rw [List.prefix_iff_getElem?.mp p.prefix_text p.index hlength, Option.some.injEq]
  exact List.getElem_concat_length rfl _

theorem index_lt : p.index < text.length := (List.getElem?_eq_some_iff.mp p.getElem?_index).1

theorem lineFeed_notMem_before : '\n' ∉ p.before := by
  have h := lineFeed_notMem_dropLast _ (List.mem_of_getElem? p.line_eq)
  rw [List.dropLast_append_cons] at h
  exact fun hmem => h (List.mem_append_left _ hmem)

/-- Where lines end with line feeds, the parser and the index give the same position. -/
theorem position_eq_ofIndex (h : EndWithLineFeeds text p.row) :
    p.position = .ofIndex text p.index := by
  have hline := Position.ofIndex_length (textBefore_endsLine h) p.lineFeed_notMem_before
  have hlength : (text.take p.index).length = p.index :=
    List.length_take_of_le (Nat.le_of_lt p.index_lt)
  rw [← p.take_index, hlength, Position.ofIndex_take hlength.ge] at hline
  rw [hline, position]
  simp only [(count_lineFeed_textBefore_iff p.row_lt).mpr h, index, List.length_append]

/-! ### Places of characters -/

theorem offsetOf_column (h : EndWithLineFeeds text p.row) :
    offsetOf (.ofSource (encode text)) (p.row + 1) p.column
      = .ok ((encode (text.take p.index)).length : Nat) := by
  rw [p.take_index]
  exact offsetOf_of_endWithLineFeeds p.row_lt h p.before

theorem offsetOf_endColumn (h : EndWithLineFeeds text p.row) :
    offsetOf (.ofSource (encode text)) (p.row + 1) p.endColumn
      = .ok ((encode (text.take (p.index + 1))).length : Nat) := by
  rw [p.take_index_succ, List.append_assoc]
  exact offsetOf_of_endWithLineFeeds p.row_lt h (p.before ++ [p.char])

theorem endWithLineFeeds_of_positionOf
    (h : positionOf (.ofSource (encode text)) (p.row + 1) p.column = .ok p.position) :
    EndWithLineFeeds text p.row := by
  rw [positionOf, bind_eq_ok_iff] at h
  obtain ⟨offset, hoffset, h⟩ := h
  rcases e : (ofSource (encode text)).lineStart? (p.row + 1) with - | ⟨start⟩
  · simp [offsetOf, e] at hoffset
  · simp only [offsetOf, e, Except.ok.injEq] at hoffset
    subst hoffset
    rw [← Int.natCast_add, built_eq_ok_iff] at h
    have hposition : (ofSource (encode text)).position (start + p.column) = p.position :=
      Except.ok.inj h
    -- the line does not begin too late, since as many characters stand before the offset
    have hle : start + p.column ≤ (encode (text.take p.index)).length := by
      by_contra hgt
      have hlt := lt_offset_position p.index_lt (Nat.lt_of_not_le hgt)
      rw [hposition] at hlt
      exact absurd hlt (Nat.lt_irrefl _)
    rw [p.take_index, encode_append, List.length_append, ← column] at hle
    -- so the line feeds before it are all in the lines before
    obtain ⟨before, rest, htext, -, hcount, hlength⟩ := lineStart?_eq_some_iff.mp e
    have hprefix : before <+: encode (textBefore text p.row) := by
      refine List.prefix_of_prefix_length_le ⟨rest, htext.symm⟩ ?_ (by omega)
      exact ⟨_, by rw [← encode_append, textBefore_append]⟩
    have hcounts := hprefix.sublist.count_le 10
    rw [hcount, count_lineFeed_encode] at hcounts
    exact (count_lineFeed_textBefore_iff p.row_lt).mp
      (Nat.le_antisymm (count_lineFeed_textBefore_le _ _) hcounts)

/-- A character has the position that the parser gives it if all lines before its own end with line
feeds. -/
theorem positionOf_eq_iff :
    positionOf (.ofSource (encode text)) (p.row + 1) p.column = .ok p.position ↔
      EndWithLineFeeds text p.row := by
  refine ⟨p.endWithLineFeeds_of_positionOf, fun h => ?_⟩
  rw [positionOf, p.offsetOf_column h, ok_bind, p.position_eq_ofIndex h,
    ← position_encode (Nat.le_of_lt p.index_lt)]
  rfl

/-- A character does not stand before another one in a later line. -/
theorem row_le_of_index_le {p q : SourceChar text} (h : p.index ≤ q.index) : p.row ≤ q.row := by
  by_contra hlt
  have hline : textBefore text (q.row + 1)
      = textBefore text q.row ++ (q.before ++ q.char :: q.after) := by
    rw [textBefore, List.take_add_one, q.line_eq, List.flatten_append]
    simp [textBefore]
  have hle := (textBefore_mono text (Nat.lt_of_not_le hlt)).length_le
  rw [hline] at hle
  simp only [index, List.length_append, List.length_cons] at h hle
  omega

/-- A node covers its own text if all lines before its last one end with line feeds. -/
theorem spanOf_rangeTo {p q : SourceChar text} {n : Node} (hrange : n.range = some (p.rangeTo q))
    (hindex : p.index ≤ q.index) (h : EndWithLineFeeds text q.row) :
    startOf (.ofSource (encode text)) n = .ok p.position ∧
      spanOf (.ofSource (encode text)) n = .ok (p.position, q.position) := by
  have hp : EndWithLineFeeds text p.row := h.mono (row_le_of_index_le hindex)
  -- the octets before the first character are fewer than those up to the last one
  have hlt : (encode (text.take p.index)).length < (encode (text.take (q.index + 1))).length := by
    obtain ⟨rest, hrest⟩ : text.take (p.index + 1) <+: text.take (q.index + 1) :=
      List.take_prefix_take_left (Nat.succ_le_succ hindex)
    have hpos := List.length_pos_iff.mpr (encode_ne_nil (List.cons_ne_nil p.char []))
    rw [← hrest, p.take_index_succ, ← p.take_index]
    simp only [encode_append, List.length_append]
    omega
  constructor
  · rw [startOf, hrange]
    exact p.positionOf_eq_iff.mpr hp
  · have hspan : spanIn (.ofSource (encode text)) (p.rangeTo q)
        = .ok (some (p.position, q.position)) := by
      rw [spanIn]
      simp only [rangeTo, p.offsetOf_column hp, q.offsetOf_endColumn h, ok_bind,
        spanAt_of_lt _ hlt, position_encode (Nat.le_of_lt p.index_lt),
        lastPosition_encode q.index_lt, p.position_eq_ofIndex hp, q.position_eq_ofIndex h]
      rfl
    rw [spanOf, hrange]
    dsimp only
    rw [hspan]
    rfl

end SourceChar

/-! ### Texts -/

/-- The index has the lines of a text where the parser has them exactly as far as every line before
ends with a line feed, and a character has the position that the parser gives it under the same
condition; then a node covers its own text. -/
theorem places_of_sourceLines (text : List Char) :
    (∀ n < (sourceLines text).length,
      n < (ofSource (encode text)).lineCount ∧
        (ofSource (encode text)).lineStart? (n + 1) = some (encode (textBefore text n)).length ↔
      EndWithLineFeeds text n) ∧
    (∀ p : SourceChar text,
      positionOf (.ofSource (encode text)) (p.row + 1) p.column = .ok p.position ↔
        EndWithLineFeeds text p.row) ∧
    ∀ (p q : SourceChar text) (n : Node), p.index ≤ q.index → n.range = some (p.rangeTo q) →
      EndWithLineFeeds text q.row →
      startOf (.ofSource (encode text)) n = .ok p.position ∧
        spanOf (.ofSource (encode text)) n = .ok (p.position, q.position) := by
  refine ⟨fun n hn => ?_, fun p => p.positionOf_eq_iff,
    fun p q n hindex hrange h => SourceChar.spanOf_rangeTo hrange hindex h⟩
  rw [lineStart?_eq_iff hn, and_iff_right_iff_imp]
  exact fun h => lt_lineCount_of_lineStart? ((lineStart?_eq_iff hn).mpr h)

/-! ### A carriage return alone -/

/-- A text with a character of two octets, a carriage return before a line feed, and a carriage
return alone behind them. -/
def mixedLines : List Char := "é = 1\r\nab = é\rc = 2\n".toList

/-- The first letter of the second line. -/
def secondLineStart : SourceChar mixedLines where
  row := 1
  before := []
  char := 'a'
  after := "b = é\r".toList
  line_eq := by decide +kernel

/-- The last letter of the second line. -/
def secondLineEnd : SourceChar mixedLines where
  row := 1
  before := "ab = ".toList
  char := 'é'
  after := ['\r']
  line_eq := by decide +kernel

/-- The second line of this text has its place, and the third one has not. -/
theorem places_of_sourceLines_mixed :
    (ofSource (encode mixedLines)).lineStart? 2 = some 8 ∧
    (ofSource (encode mixedLines)).lineStart? 3 ≠ some 16 ∧
    spanOf (.ofSource (encode mixedLines))
        ⟨"body", "Assign", some (secondLineStart.rangeTo secondLineEnd), [], []⟩
      = .ok (⟨2, 1, 7, by decide, by decide⟩, ⟨2, 6, 12, by decide, by decide⟩) := by
  obtain ⟨hlines, -, hnodes⟩ := places_of_sourceLines mixedLines
  have hsecond : EndWithLineFeeds mixedLines 1 := by decide +kernel
  refine ⟨((hlines 1 (by decide +kernel)).mpr hsecond).2, fun h => ?_, ?_⟩
  · have hthird : EndWithLineFeeds mixedLines 2 :=
      (hlines 2 (by decide +kernel)).mp ⟨by decide +kernel, h⟩
    exact absurd hthird (by decide +kernel)
  · exact (hnodes secondLineStart secondLineEnd _ (by decide +kernel) rfl hsecond).2

/-- Not all lines of all texts have their place. -/
theorem not_forall_lineStart :
    ¬ ∀ (text : List Char) (n : Nat), n < (sourceLines text).length →
      n < (ofSource (encode text)).lineCount ∧
        (ofSource (encode text)).lineStart? (n + 1) = some (encode (textBefore text n)).length := by
  intro hall
  have hn : 1 < (sourceLines "x = 1\ry = 2\n".toList).length := by decide +kernel
  have hfeeds := (lineStart?_eq_iff hn).mp (hall _ 1 hn).2
  exact absurd hfeeds (by decide +kernel)

end Python

end CodeOutline
