/-
CodeOutline/Proofs/Javadoc/Canonical.lean

Comments in canonical form.

`write` sets down a description and tags as a comment: one line for each line of text, with a star
and a space in front, and each tag begun by a line with its name behind an at sign.  Reading gives
back what was written (`parse_write`): the description and the tags in order, where a tag that names
something has its first word set apart, from whichever of its lines it comes.

Text can be written if it comes back out of cleaning: lines are trimmed, hold no break and neither
open nor close a preformatted element.  Such a line is cleaned to itself, whatever it begins with,
since only the star in front of it is taken for one (`cleanFrom_starred`).  The opening and the
closing of the comment leave an empty line each, which trimming removes.
-/
import CodeOutline.Proofs.Javadoc.Words
import Mathlib.Data.List.Infix

namespace CodeOutline.Javadoc

open Outcome Text

/-! ### Writing -/

/-- A tag as it is written: its name, the text behind the name, and further lines. -/
structure Block where
  name : List Char
  first : List Char
  more : List (List Char)

namespace Block

/-- The line with the name of a tag. -/
def opening (b : Block) : List Char := '@' :: (b.name ++ ' ' :: b.first)

/-- The lines of a tag. -/
def lines (b : Block) : List (List Char) := b.opening :: b.more

/-- The text of a tag. -/
def content (b : Block) : List Char := joinTrimmed (b.first :: b.more)

/-- The tag that is written: its text as it is, or the first word of it apart from the rest. -/
def toTag (b : Block) : DocumentationTag :=
  if isNamedTag (String.ofList b.name) then
    match words b.content with
    | [] => ⟨String.ofList b.name, "", []⟩
    | word :: _ =>
      ⟨String.ofList b.name, String.ofList (trim (b.content.drop word.length)),
        [("name", String.ofList word)]⟩
  else ⟨String.ofList b.name, String.ofList b.content, []⟩

end Block

/-- A line of text as a line of a comment. -/
def starred (line : List Char) : List Char := ' ' :: '*' :: ' ' :: line

/-- The comment with the given lines. -/
def enclose (ls : List (List Char)) : String :=
  String.ofList ("/**".toList ++ ((([] :: ls.map starred).flatMap (· ++ ['\n']) ++ [' '])
    ++ "*/".toList))

/-- The comment with a description and tags. -/
def write (description : List (List Char)) (blocks : List Block) : String :=
  enclose (description ++ blocks.flatMap Block.lines)

/-- Text that can stand on a line of a comment. -/
structure IsText (line : List Char) : Prop where
  trimmed : trim line = line
  unbroken : IsUnbroken line
  notPre : ∀ cs, cs <:+ line → opensPre cs = false ∧ closesPre cs = false

/-- A line that would open a tag. -/
def HasTagForm (line : List Char) : Prop := ∃ name rest, IsTagLine line name rest

/-- Tags that can be written. -/
structure Block.IsWritable (b : Block) : Prop where
  name : IsTagName b.name
  first : IsText b.first
  more : ∀ l ∈ b.more, IsText l ∧ ¬ HasTagForm l

theorem hasTagForm_iff {line : List Char} : HasTagForm line ↔ (blockTag? line).isSome = true := by
  rw [Option.isSome_iff_exists]
  constructor
  · rintro ⟨name, rest, hline⟩
    exact ⟨_, blockTag?_eq_some_iff.mpr ⟨rest, hline, rfl⟩⟩
  · rintro ⟨⟨name, text⟩, htag⟩
    obtain ⟨rest, hline, -⟩ := blockTag?_eq_some_iff.mp htag
    exact ⟨name, rest, hline⟩

theorem blockTag?_eq_none {line : List Char} (h : ¬ HasTagForm line) : blockTag? line = none := by
  rw [hasTagForm_iff, Bool.not_eq_true, Option.isSome_eq_false_iff] at h
  exact Option.isNone_iff_eq_none.mp h

/-! ### What can be written is decided -/

theorem isText_iff {line : List Char} :
    IsText line ↔ trim line = line ∧ IsUnbroken line ∧
      ∀ cs ∈ line.tails, opensPre cs = false ∧ closesPre cs = false := by
  constructor
  · intro h
    exact ⟨h.trimmed, h.unbroken, fun cs hcs => h.notPre cs ((List.mem_tails cs line).mp hcs)⟩
  · rintro ⟨htrim, hunbroken, hpre⟩
    exact ⟨htrim, hunbroken, fun cs hcs => hpre cs ((List.mem_tails cs line).mpr hcs)⟩

instance (line : List Char) : Decidable (IsText line) :=
  decidable_of_iff (trim line = line ∧ (line.all fun c => !isLineBreak c) = true ∧
      (line.tails.all fun cs => !opensPre cs && !closesPre cs) = true)
    (by simp [isText_iff, IsUnbroken])

instance (line : List Char) : Decidable (HasTagForm line) :=
  decidable_of_iff _ hasTagForm_iff.symm

instance (name : List Char) : Decidable (IsTagName name) :=
  match name with
  | [] => isFalse fun h => h.ne_nil rfl
  | c :: cs =>
    decidable_of_iff
      (c.isAlpha = true ∧ (cs.all fun d => isWordChar d || d == '.' || d == '-') = true)
      (by simp [IsTagName, or_assoc])

instance (b : Block) : Decidable b.IsWritable :=
  decidable_of_iff (IsTagName b.name ∧ IsText b.first ∧ ∀ l ∈ b.more, IsText l ∧ ¬ HasTagForm l)
    ⟨fun ⟨hn, hf, hm⟩ => ⟨hn, hf, hm⟩, fun h => ⟨h.name, h.first, h.more⟩⟩

/-! ### Cleaning what was written -/

theorem eq_of_toLower_eq_lt {c : Char} (h : c.toLower = '<') : c = '<' := by
  unfold Char.toLower at h
  split at h
  · next hc =>
    -- a capital letter is turned into a letter
    have hlow : 65 ≤ c.val.toNat := UInt32.le_iff_toNat_le.mp hc.1
    have hhigh : c.val.toNat ≤ 90 := UInt32.le_iff_toNat_le.mp hc.2
    have hval : (c.val + 32).toNat = 60 := congrArg (fun d => d.val.toNat) h
    have hshift : (32 : UInt32).toNat = 32 := rfl
    rw [UInt32.toNat_add, hshift] at hval
    omega
  · exact h

theorem startsWith_cons_of_ne {word : String} {w : List Char} (hword : word.toList = '<' :: w)
    {c : Char} (hc : c ≠ '<') (cs : List Char) : startsWith word (c :: cs) = false := by
  have hlower : ('<' == c.toLower) = false := by
    rw [beq_eq_false_iff_ne]
    exact fun e => hc (eq_of_toLower_eq_lt e.symm)
  have hlength : word.length = w.length + 1 := by
    rw [← String.length_toList, hword, List.length_cons]
  rw [startsWith, hword, hlength, List.take_succ_cons, List.map_cons, List.isPrefixOf, hlower,
    Bool.false_and]

/-- Elements are opened and closed at angle brackets only. -/
theorem preAfter_cons_of_ne {c : Char} (hc : c ≠ '<') (pre : Bool) (cs : List Char) :
    preAfter pre (c :: cs) = preAfter pre cs := by
  have hopen : opensPre (c :: cs) = false := by
    rw [opensPre, startsWith_cons_of_ne rfl hc, Bool.false_and]
  have hclose : closesPre (c :: cs) = false := by
    rw [closesPre, startsWith_cons_of_ne rfl hc, Bool.false_and]
  rw [preAfter, hopen, hclose]
  rfl

theorem preAfter_append_of_notMem {a : List Char} (h : '<' ∉ a) (pre : Bool) (cs : List Char) :
    preAfter pre (a ++ cs) = preAfter pre cs := by
  induction a with
  | nil => rfl
  | cons c a ih =>
    have hc : c ≠ '<' := fun e => h (e ▸ List.mem_cons_self)
    rw [List.cons_append, preAfter_cons_of_ne hc, ih fun hmem => h (List.mem_cons_of_mem _ hmem)]

theorem IsText.preAfter {line : List Char} (h : IsText line) (pre : Bool) :
    Javadoc.preAfter pre line = pre := by
  have hsuffix := h.notPre
  clear h
  induction line generalizing pre with
  | nil => rfl
  | cons c line ih =>
    obtain ⟨hopen, hclose⟩ := hsuffix (c :: line) (List.suffix_refl _)
    rw [Javadoc.preAfter, hopen, hclose]
    exact ih pre fun cs hcs => hsuffix cs (hcs.trans (List.suffix_cons c line))

/-- A starred line is cleaned to its text, if the text leaves no element open. -/
theorem cleanFrom_starred {line : List Char} (h : preAfter false (trimRight line) = false)
    (rest : List (List Char)) :
    cleanFrom false (starred line :: rest) = trim line :: cleanFrom false rest := by
  have hdrop : dropStar (starred line) = line := dropStar_starred line
  simp only [cleanFrom, hdrop, h, Bool.false_eq_true, if_false, trimLeft_trimRight]

theorem cleanFrom_map_starred {ls : List (List Char)}
    (h : ∀ l ∈ ls, preAfter false (trimRight l) = false) (rest : List (List Char)) :
    cleanFrom false (ls.map starred ++ rest) = ls.map trim ++ cleanFrom false rest := by
  induction ls with
  | nil => rfl
  | cons l ls ih =>
    rw [List.map_cons, List.cons_append, cleanFrom_starred (h l List.mem_cons_self),
      ih fun k hk => h k (List.mem_cons_of_mem _ hk)]
    rfl

/-- The cleaned lines of a comment are its lines, between two empty ones. -/
theorem cleanLines_enclose {ls : List (List Char)} (hunbroken : ∀ l ∈ ls, IsUnbroken l)
    (hpre : ∀ l ∈ ls, preAfter false (trimRight l) = false) :
    cleanLines (enclose ls) = [] :: (ls.map trim ++ [[]]) := by
  have hstarred : ∀ l ∈ [] :: ls.map starred, IsUnbroken l := by
    refine List.forall_mem_cons.mpr ⟨isUnbroken_nil, fun l hl => ?_⟩
    obtain ⟨k, hk, rfl⟩ := List.mem_map.mp hl
    exact List.forall_mem_cons.mpr ⟨by decide, List.forall_mem_cons.mpr ⟨by decide,
      List.forall_mem_cons.mpr ⟨by decide, hunbroken k hk⟩⟩⟩
  have hblank : splitLines [' '] = [[' ']] := rfl
  rw [cleanLines, enclose, String.toList_ofList, body_of_closed,
    splitLines_flatMap_lineFeed hstarred, hblank]
  show [] :: cleanFrom false (ls.map starred ++ [[' ']]) = _
  rw [cleanFrom_map_starred hpre]
  rfl

/-! ### Tags that were written -/

namespace Block

/-- The line with the name of a tag as it is cleaned: without the space in front of no text. -/
theorem trimRight_opening {b : Block} (h : b.IsWritable) :
    trimRight b.opening = '@' :: (b.name ++ if b.first = [] then [] else ' ' :: b.first) := by
  by_cases hfirst : b.first = []
  · have hblank : ∀ c ∈ [' '], isBlank c = true := isBlank_of_mem_replicate (k := 1)
    have hname : ∀ c ∈ '@' :: b.name, isBlank c = false :=
      List.forall_mem_cons.mpr ⟨by decide, h.name.isBlank⟩
    rw [if_pos hfirst, opening, hfirst, ← List.cons_append, trimRight_append_of_blank _ hblank,
      trimRight_of_not_isBlank hname, List.append_nil]
  · have hright : trimRight b.first = b.first := trimRight_of_trim h.first.trimmed
    have happend : b.opening = '@' :: (b.name ++ [' ']) ++ b.first := by
      simp [opening]
    rw [if_neg hfirst, happend, trimRight_append_of_ne_nil _ (by rwa [hright]), hright]
    simp

theorem trim_opening {b : Block} (h : b.IsWritable) : trim b.opening = trimRight b.opening := by
  rw [← trimLeft_trimRight, trimRight_opening h]
  exact trimLeft_of_head (by simp; decide)

theorem lt_notMem_name {b : Block} (h : b.IsWritable) : '<' ∉ '@' :: b.name := by
  obtain ⟨c, cs, hname, hc, hcs⟩ := h.name
  have hword : isWordChar '<' = false := by decide
  rw [hname]
  simp only [List.mem_cons, not_or]
  refine ⟨by decide, ?_, fun hmem => ?_⟩
  · rintro rfl
    exact absurd hc (by decide)
  · rcases hcs _ hmem with hlt | hlt | hlt
    · rw [hword] at hlt
      cases hlt
    · exact absurd hlt (by decide)
    · exact absurd hlt (by decide)

theorem preAfter_opening {b : Block} (h : b.IsWritable) :
    preAfter false (trimRight b.opening) = false := by
  rw [trimRight_opening h, ← List.cons_append, preAfter_append_of_notMem (lt_notMem_name h)]
  split
  · rfl
  · rw [preAfter_cons_of_ne (by decide), h.first.preAfter]

theorem isUnbroken_opening {b : Block} (h : b.IsWritable) : IsUnbroken b.opening := by
  have hname : IsUnbroken ('@' :: b.name) :=
    isUnbroken_of_not_isBlank (List.forall_mem_cons.mpr ⟨by decide, h.name.isBlank⟩)
  have hfirst : IsUnbroken (' ' :: b.first) :=
    List.forall_mem_cons.mpr ⟨by decide, h.first.unbroken⟩
  exact hname.append hfirst

theorem blockTag?_opening {b : Block} (h : b.IsWritable) :
    blockTag? (trim b.opening) = some (b.name, b.first) := by
  rw [blockTag?_eq_some_iff, trim_opening h]
  refine ⟨_, ⟨trimRight_opening h, h.name, ?_⟩, ?_⟩
  · split
    · simp
    · simp; decide
  · split
    · next e => rw [e, trimLeft_nil]
    · have hspace : trimLeft (' ' :: b.first) = trimLeft b.first := by
        rw [trimLeft, List.dropWhile_cons_of_pos (by decide), trimLeft]
      rw [hspace, trimLeft_of_trim h.first.trimmed]

theorem map_trim_more {b : Block} (h : b.IsWritable) : b.more.map trim = b.more :=
  map_trim_eq_self fun l hl => (h.more l hl).1.trimmed

/-- The written tag is what is read off its name and its text. -/
theorem tag_eq_toTag {b : Block} (h : IsTagName b.name) :
    tag (String.ofList b.name) (String.ofList b.content) = .ok b.toTag := by
  have hname : allBlank (String.ofList b.name) = false := by
    obtain ⟨c, cs, hcs⟩ := List.exists_cons_of_ne_nil h.ne_nil
    rw [allBlank_ofList, hcs, List.all_cons, h.isBlank c (hcs ▸ List.mem_cons_self),
      Bool.false_and]
  have hleft : trimLeft b.content = b.content := trimLeft_of_trim (trim_trim _)
  unfold tag toTag
  split
  · rw [String.toList_ofList]
    rcases e : splitFirstWord b.content with - | ⟨word, rest⟩
    · rw [splitFirstWord_eq_none e]
      exact DocumentationTag.make_eq_ok_iff.mpr ⟨hname, rfl⟩
    · obtain ⟨more, hcontent, hrest, -⟩ := exists_of_splitFirstWord e
      have hdrop : b.content.drop word.length = more := by
        rw [← hleft, hcontent, List.drop_left]
      rw [words_splitFirstWord e]
      show DocumentationTag.make _ _ _
        = .ok ⟨_, String.ofList (trim (b.content.drop word.length)), _⟩
      rw [hdrop, ← hrest]
      exact DocumentationTag.make_eq_ok_iff.mpr ⟨hname, rfl⟩
  · exact DocumentationTag.make_eq_ok_iff.mpr ⟨hname, rfl⟩

end Block

/-! ### Reading what was written -/

theorem group_append_of_eq_none {ls : List (List Char)} (h : ∀ l ∈ ls, blockTag? l = none)
    (rest : List (List Char)) : group (ls ++ rest) = (ls ++ (group rest).1, (group rest).2) := by
  induction ls with
  | nil => rfl
  | cons l ls ih =>
    rw [List.cons_append, group, ih fun k hk => h k (List.mem_cons_of_mem _ hk),
      h l List.mem_cons_self]
    rfl

/-- Written tags are found one by one; the empty line at the end goes on with the last of them. -/
theorem group_blocks {bs : List Block} (h : ∀ b ∈ bs, b.IsWritable) :
    ((group (bs.flatMap (fun b => b.lines.map trim) ++ [[]])).1 = [] ∨
      (group (bs.flatMap (fun b => b.lines.map trim) ++ [[]])).1 = [[]]) ∧
    List.Forall₂
      (fun t b => tag (String.ofList t.1) (String.ofList (joinTrimmed t.2)) = .ok b.toTag)
      (group (bs.flatMap (fun b => b.lines.map trim) ++ [[]])).2 bs := by
  induction bs with
  | nil => exact ⟨.inr rfl, .nil⟩
  | cons b bs ih =>
    obtain ⟨hhead, htags⟩ := ih fun c hc => h c (List.mem_cons_of_mem _ hc)
    have hb : b.IsWritable := h b List.mem_cons_self
    have hmore : ∀ l ∈ b.more, blockTag? l = none := fun l hl => blockTag?_eq_none (hb.more l hl).2
    have hlines : b.lines.map trim = trim b.opening :: b.more := by
      rw [Block.lines, List.map_cons, Block.map_trim_more hb]
    rw [List.flatMap_cons, hlines, List.append_assoc, List.cons_append, group,
      group_append_of_eq_none hmore, Block.blockTag?_opening hb]
    have hcontent : joinTrimmed (b.first :: (b.more
        ++ (group (bs.flatMap (fun b => b.lines.map trim) ++ [[]])).1)) = b.content := by
      rcases hhead with e | e
      · rw [e, List.append_nil]
        rfl
      · rw [e, ← List.cons_append, joinTrimmed_concat_nil]
        rfl
    refine ⟨.inl rfl, .cons ?_ htags⟩
    show tag (String.ofList b.name) (String.ofList (joinTrimmed (b.first :: (b.more ++ _)))) = _
    rw [hcontent]
    exact Block.tag_eq_toTag hb.name

/-- Reading a comment that was written gives back its description and its tags. -/
theorem parse_write {description : List (List Char)} {blocks : List Block}
    (hdescription : ∀ l ∈ description, IsText l ∧ ¬ HasTagForm l)
    (hblocks : ∀ b ∈ blocks, b.IsWritable) (position : Option Position) :
    parse (write description blocks) position
      = .ok ⟨.javadoc, String.ofList (joinTrimmed description), position,
          blocks.map Block.toTag, []⟩ := by
  have hlines : ∀ l ∈ description ++ blocks.flatMap Block.lines,
      IsUnbroken l ∧ preAfter false (trimRight l) = false := by
    have htext : ∀ l, IsText l → IsUnbroken l ∧ preAfter false (trimRight l) = false :=
      fun l hl => ⟨hl.unbroken, by rw [trimRight_of_trim hl.trimmed, hl.preAfter]⟩
    refine List.forall_mem_append.mpr ⟨fun l hl => htext l (hdescription l hl).1, fun l hl => ?_⟩
    obtain ⟨b, hb, hl⟩ := List.mem_flatMap.mp hl
    rcases List.mem_cons.mp hl with rfl | hl
    · exact ⟨Block.isUnbroken_opening (hblocks b hb), Block.preAfter_opening (hblocks b hb)⟩
    · exact htext l ((hblocks b hb).more l hl).1
  have hclean : cleanLines (write description blocks)
      = ([] :: description) ++ (blocks.flatMap (fun b => b.lines.map trim) ++ [[]]) := by
    have htrim : description.map trim = description :=
      map_trim_eq_self fun l hl => (hdescription l hl).1.trimmed
    rw [write, cleanLines_enclose (fun l hl => (hlines l hl).1) fun l hl => (hlines l hl).2,
      List.map_append, htrim, List.map_flatMap, List.append_assoc, List.cons_append]
  have hplain : ∀ l ∈ [] :: description, blockTag? l = none :=
    List.forall_mem_cons.mpr ⟨rfl, fun l hl => blockTag?_eq_none (hdescription l hl).2⟩
  obtain ⟨hhead, htags⟩ := group_blocks hblocks
  have hjoin : joinTrimmed ([] :: description
      ++ (group (blocks.flatMap (fun b => b.lines.map trim) ++ [[]])).1)
        = joinTrimmed description := by
    rcases hhead with e | e
    · rw [e, List.append_nil, joinTrimmed_cons_nil]
    · rw [e, joinTrimmed_concat_nil, joinTrimmed_cons_nil]
  have hread : (group (blocks.flatMap (fun b => b.lines.map trim) ++ [[]])).2.mapM
      (fun t => tag (String.ofList t.1) (String.ofList (joinTrimmed t.2)))
        = .ok (blocks.map Block.toTag) := by
    rw [mapM_eq_ok_iff, List.forall₂_map_right_iff]
    exact htags
  rw [parse, hclean, group_append_of_eq_none hplain]
  simp only [hread, ok_bind, Documentation.make_eq_ok, hjoin]

/-- A line may begin with a star or hold an at sign, and the name of what a tag is about may stand
on a line of its own. -/
theorem parse_write_bulleted :
    (∀ l ∈ ["* one".toList, [], "see @two".toList], IsText l ∧ ¬ HasTagForm l) ∧
    (∀ b ∈ [Block.mk "param".toList [] ["size".toList, "in bytes".toList],
      Block.mk "see".toList "#three".toList []], b.IsWritable) ∧
    parse (write ["* one".toList, [], "see @two".toList]
      [⟨"param".toList, [], ["size".toList, "in bytes".toList]⟩,
        ⟨"see".toList, "#three".toList, []⟩]) none
      = .ok ⟨.javadoc, "* one\n\nsee @two", none,
          [⟨"param", "in bytes", [("name", "size")]⟩, ⟨"see", "#three", []⟩], []⟩ := by
  have hdescription : ∀ l ∈ ["* one".toList, [], "see @two".toList],
      IsText l ∧ ¬ HasTagForm l := by decide +kernel
  have hblocks : ∀ b ∈ [Block.mk "param".toList [] ["size".toList, "in bytes".toList],
      Block.mk "see".toList "#three".toList []], b.IsWritable := by decide +kernel
  refine ⟨hdescription, hblocks, (parse_write hdescription hblocks none).trans ?_⟩
  rfl

end CodeOutline.Javadoc
