/-
CodeOutline/Proofs/Text/Encoded.lean

Texts that are encoded are read back.

The octets of a character are read one by one: the first one says how many are owed and between
which bounds the next one lies, each of the others is within its bounds, and the last one completes
the character (`decode_encodeChar_append`).  So a text is decoded from its octets character by
character (`decode_encode`).
-/
import CodeOutline.Proofs.Text.Boundary

namespace CodeOutline.Text.Utf8

/-! ### First octets -/

theorem first_of_one {n : Nat} (h : n < 0x80) :
    first n = ([⟨1, .ok (Char.ofNat n)⟩], .start) := by
  rw [first, if_pos h]

theorem first_of_two {n : Nat} (h : 0xC2 ≤ n) (h' : n < 0xE0) :
    first n = ([], .inside 1 0x80 0xBF (n - 0xC0) 1) := by
  rw [first, if_neg (by omega), if_neg (by omega), if_pos h']

/-- The second of three octets lies higher after the first first octet, and lower after the one of
the surrogates. -/
theorem first_of_three {n : Nat} (h : 0xE0 ≤ n) (h' : n < 0xF0) :
    first n = ([], .inside 2 (if n = 0xE0 then 0xA0 else 0x80) (if n = 0xED then 0x9F else 0xBF)
      (n - 0xE0) 1) := by
  rw [first, if_neg (by omega), if_neg (by omega), if_neg (by omega)]
  by_cases hlow : n = 0xE0
  · subst hlow
    rfl
  by_cases hhigh : n = 0xED
  · subst hhigh
    rfl
  rw [if_neg hlow, if_neg hlow, if_neg hhigh, if_neg hhigh, if_pos h']

/-- The second of four octets lies higher after the first first octet, and lower after the last
one. -/
theorem first_of_four {n : Nat} (h : 0xF0 ≤ n) (h' : n ≤ 0xF4) :
    first n = ([], .inside 3 (if n = 0xF0 then 0x90 else 0x80) (if n = 0xF4 then 0x8F else 0xBF)
      (n - 0xF0) 1) := by
  rw [first, if_neg (by omega), if_neg (by omega), if_neg (by omega), if_neg (by omega),
    if_neg (by omega), if_neg (by omega)]
  by_cases hlow : n = 0xF0
  · subst hlow
    rfl
  by_cases hhigh : n = 0xF4
  · subst hhigh
    rfl
  rw [if_neg hlow, if_neg hlow, if_neg hhigh, if_neg hhigh, if_pos (by omega)]

/-! ### Octets inside a character -/

variable {n low high value taken : Nat}

/-- An octet between characters is read as a first one. -/
theorem decode_of_first {ps : List Piece} {s : State} (hn : n < 256) (h : first n = (ps, s))
    (bs : Octets) :
    decode (UInt8.ofNat n :: bs) = ps.map Piece.char ++ decodeFrom s bs := by
  have hstep : decode (UInt8.ofNat n :: bs)
      = (first (UInt8.ofNat n).toNat).1.map Piece.char
        ++ decodeFrom (first (UInt8.ofNat n).toNat).2 bs := decodeFrom_cons .start _ bs
  rw [hstep, UInt8.toNat_ofNat_of_lt' hn, h]

/-- An octet within the bounds, after which more are owed. -/
theorem decodeFrom_of_owed (owed : Nat) (hn : n < 256) (hlow : low ≤ n) (hhigh : n ≤ high)
    (bs : Octets) :
    decodeFrom (.inside (owed + 2) low high value taken) (UInt8.ofNat n :: bs)
      = decodeFrom (.inside (owed + 1) 0x80 0xBF (value * 64 + (n - 0x80)) (taken + 1)) bs := by
  rw [decodeFrom_cons, UInt8.toNat_ofNat_of_lt' hn]
  simp [step, hlow, hhigh]

/-- An octet within the bounds that is the last one owed. -/
theorem decodeFrom_of_last (hn : n < 256) (hlow : low ≤ n) (hhigh : n ≤ high) (bs : Octets) :
    decodeFrom (.inside 1 low high value taken) (UInt8.ofNat n :: bs)
      = Char.ofNat (value * 64 + (n - 0x80)) :: decode bs := by
  rw [decodeFrom_cons, UInt8.toNat_ofNat_of_lt' hn]
  simp [step, hlow, hhigh, decodeFrom, decode, pieces, Piece.char]

/-! ### Encoded texts -/

/-- The numbers of characters leave out those of surrogates. -/
theorem toNat_of_char (c : Char) : c.toNat < 0xD800 ∨ 0xDFFF < c.toNat ∧ c.toNat < 0x110000 :=
  c.valid

/-- The octets of a character are read as that character. -/
theorem decode_encodeChar_append (c : Char) (bs : Octets) :
    decode (String.utf8EncodeChar c ++ bs) = c :: decode bs := by
  have hvalid := toNat_of_char c
  have hchar := Char.ofNat_toNat c
  rw [String.utf8EncodeChar, ← Char.toNat]
  generalize c.toNat = v at hvalid hchar
  split
  · -- one octet
    rw [List.cons_append, List.nil_append, decode_of_first (by omega) (first_of_one (by omega)),
      List.map_singleton, Piece.char, hchar]
    rfl
  · split
    · -- two octets
      have hvalue : (v / 64 % 32 + 192 - 0xC0) * 64 + (v % 64 + 128 - 0x80) = v := by omega
      rw [List.cons_append, List.cons_append, List.nil_append,
        decode_of_first (by omega) (first_of_two (by omega) (by omega)), List.map_nil,
        List.nil_append, decodeFrom_of_last (by omega) (by omega) (by omega), hvalue, hchar]
    · split
      · -- three octets
        have hvalue : ((v / 4096 % 16 + 224 - 0xE0) * 64 + (v / 64 % 64 + 128 - 0x80)) * 64
            + (v % 64 + 128 - 0x80) = v := by omega
        rw [List.cons_append, List.cons_append, List.cons_append, List.nil_append,
          decode_of_first (by omega) (first_of_three (by omega) (by omega)), List.map_nil,
          List.nil_append,
          decodeFrom_of_owed 0 (by omega) (by split <;> omega) (by split <;> omega),
          decodeFrom_of_last (by omega) (by omega) (by omega), hvalue, hchar]
      · -- four octets
        have hvalue : (((v / 262144 % 8 + 240 - 0xF0) * 64 + (v / 4096 % 64 + 128 - 0x80)) * 64
            + (v / 64 % 64 + 128 - 0x80)) * 64 + (v % 64 + 128 - 0x80) = v := by omega
        rw [List.cons_append, List.cons_append, List.cons_append, List.cons_append,
          List.nil_append, decode_of_first (by omega) (first_of_four (by omega) (by omega)),
          List.map_nil, List.nil_append,
          decodeFrom_of_owed 1 (by omega) (by split <;> omega) (by split <;> omega),
          decodeFrom_of_owed 0 (by omega) (by omega) (by omega),
          decodeFrom_of_last (by omega) (by omega) (by omega), hvalue, hchar]

/-- An encoded text is read back with anything behind it. -/
theorem decode_encode_append (cs : List Char) (bs : Octets) :
    decode (encode cs ++ bs) = cs ++ decode bs := by
  induction cs with
  | nil => rfl
  | cons c cs ih =>
    rw [encode, List.flatMap_cons, ← encode, List.append_assoc, decode_encodeChar_append, ih,
      List.cons_append]

/-- An encoded text is decoded to itself. -/
theorem decode_encode (cs : List Char) : decode (encode cs) = cs := by
  have h := decode_encode_append cs []
  rwa [List.append_nil, decode_nil, List.append_nil] at h

theorem count_lineFeed_encode (cs : List Char) : (encode cs).count 10 = cs.count '\n' := by
  rw [← count_lineFeed_decode, decode_encode]

theorem encode_ne_nil {cs : List Char} (h : cs ≠ []) : encode cs ≠ [] := by
  intro e
  have hdecode := decode_encode cs
  rw [e] at hdecode
  exact h hdecode.symm

/-! ### Parts of encoded texts -/

theorem encode_take_append_drop (text : List Char) (i : Nat) :
    encode (text.take i) ++ encode (text.drop i) = encode text := by
  rw [← encode_append, List.take_append_drop]

theorem take_encode (text : List Char) (i : Nat) :
    (encode text).take (encode (text.take i)).length = encode (text.take i) := by
  rw [← encode_take_append_drop text i, List.take_left]

end CodeOutline.Text.Utf8
