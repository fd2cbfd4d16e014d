import ActivityScript.Text.Utf8

/-!
# Exactness of UTF-8

Decoding accepts a byte sequence exactly when it is the encoding of a text, and gives that text
(`decode_eq_ok_iff`). Both directions rest on single characters: `pieceAt_append` finds a character
in front of whatever follows its bytes, and `eq_append_of_pieceAt` finds the bytes of a character in
a sequence that begins with it. The bytes of a character are described once, by their values, in
`utf8EncodeChar_cases`.
-/

namespace ActivityScript.Text.Utf8

/-! ## Bytes of a character -/

/-- A code point is no surrogate and has at most 21 bits. This is what makes a number a character,
and what UTF-8 relies on. -/
theorem toNat_cases (c : Char) : c.toNat < 0xD800 ∨ 0xE000 ≤ c.toNat ∧ c.toNat < 0x110000 := by
  have h := c.valid
  simp only [UInt32.isValidChar, Nat.isValidChar] at h
  simp only [Char.toNat]
  omega

/-- The bytes of a character, by the number of its bits. They are described by their values here, so
that everything else about them is arithmetic. -/
theorem utf8EncodeChar_cases (c : Char) :
    (c.toNat < 0x80 ∧ ∃ a, String.utf8EncodeChar c = [a] ∧ a.toNat = c.toNat) ∨
    (0x80 ≤ c.toNat ∧ c.toNat < 0x800 ∧ ∃ a b, String.utf8EncodeChar c = [a, b] ∧
      a.toNat = 0xC0 + c.toNat / 64 ∧ b.toNat = 0x80 + c.toNat % 64) ∨
    (0x800 ≤ c.toNat ∧ c.toNat < 0x10000 ∧ ∃ a b d, String.utf8EncodeChar c = [a, b, d] ∧
      a.toNat = 0xE0 + c.toNat / 4096 ∧ b.toNat = 0x80 + c.toNat / 64 % 64 ∧
      d.toNat = 0x80 + c.toNat % 64) ∨
    (0x10000 ≤ c.toNat ∧ ∃ a b d e, String.utf8EncodeChar c = [a, b, d, e] ∧
      a.toNat = 0xF0 + c.toNat / 262144 ∧ b.toNat = 0x80 + c.toNat / 4096 % 64 ∧
      d.toNat = 0x80 + c.toNat / 64 % 64 ∧ e.toNat = 0x80 + c.toNat % 64) := by
  have hrange := toNat_cases c
  have hval : c.val.toNat = c.toNat := rfl
  unfold String.utf8EncodeChar
  simp only [hval]
  split
  · exact .inl ⟨by omega, _, rfl, by rw [UInt8.toNat_ofNat']; omega⟩
  · split
    · refine .inr (.inl ⟨by omega, by omega, _, _, rfl, ?_, ?_⟩) <;>
        rw [UInt8.toNat_ofNat'] <;> omega
    · split
      · refine .inr (.inr (.inl ⟨by omega, by omega, _, _, _, rfl, ?_, ?_, ?_⟩)) <;>
          rw [UInt8.toNat_ofNat'] <;> omega
      · refine .inr (.inr (.inr ⟨by omega, _, _, _, _, rfl, ?_, ?_, ?_, ?_⟩)) <;>
          rw [UInt8.toNat_ofNat'] <;> omega

/-- The code point of the character with number `n`, if `n` is the number of a character at all. For
any other number, `Char.ofNat` gives the null character. -/
theorem toNat_ofNat {n : Nat} (h : n < 0xD800 ∨ 0xE000 ≤ n ∧ n < 0x110000) :
    (Char.ofNat n).toNat = n := by
  have hvalid : n.isValidChar := by
    rcases h with h | h
    · exact .inl h
    · exact .inr ⟨by omega, h.2⟩
  rw [Char.ofNat, dif_pos hvalid]
  rfl

/-! ## Classes of bytes by their values -/

/-- The bytes that continue a character are those with the bits `10` in front: the values from
`0x80` to `0xBF`. -/
theorem isContinuation_iff {b : UInt8} : isContinuation b ↔ 0x80 ≤ b.toNat ∧ b.toNat ≤ 0xBF := by
  simp [isContinuation, UInt8.le_iff_toNat_le]

/-- Which bytes may stand second among three, by their values. After `0xE0` small ones would write a
character that needs two bytes only, and after `0xED` large ones a surrogate. -/
theorem secondOfThree_iff {a b : UInt8} :
    secondOfThree a b ↔ (0x80 ≤ b.toNat ∧ b.toNat ≤ 0xBF) ∧ (a.toNat = 0xE0 → 0xA0 ≤ b.toNat) ∧
      (a.toNat = 0xED → b.toNat ≤ 0x9F) := by
  simp [secondOfThree, isContinuation_iff, UInt8.le_iff_toNat_le, ← UInt8.toNat_inj, and_assoc,
    Classical.or_iff_not_imp_left]

/-- Which bytes may stand second among four, by their values. After `0xF0` small ones would write a
character that needs three bytes only, and after `0xF4` large ones no character at all. -/
theorem secondOfFour_iff {a b : UInt8} :
    secondOfFour a b ↔ (0x80 ≤ b.toNat ∧ b.toNat ≤ 0xBF) ∧ (a.toNat = 0xF0 → 0x90 ≤ b.toNat) ∧
      (a.toNat = 0xF4 → b.toNat ≤ 0x8F) := by
  simp [secondOfFour, isContinuation_iff, UInt8.le_iff_toNat_le, ← UInt8.toNat_inj, and_assoc,
    Classical.or_iff_not_imp_left]

/-! ## One character -/

/-- The bytes of a character are found to be that character, whatever follows them. Each of the four
cases of `utf8EncodeChar_cases` is one branch of `pieceAt`. -/
theorem pieceAt_append {c : Char} {a : UInt8} {bytes : List UInt8}
    (h : String.utf8EncodeChar c = a :: bytes) (rest : List UInt8) :
    pieceAt a (bytes ++ rest) = .char c (bytes.length + 1) := by
  have hrange := toNat_cases c
  have hc {n : Nat} (hn : n = c.toNat) : Char.ofNat n = c := by rw [hn, Char.ofNat_toNat]
  unfold pieceAt
  simp only [UInt8.le_iff_toNat_le, UInt8.lt_iff_toNat_lt, Bool.or_eq_true, decide_eq_true_eq,
    UInt8.reduceToNat]
  rcases utf8EncodeChar_cases c with ⟨hlt, x, heq, hx⟩ | ⟨hge, hlt, x, y, heq, hx, hy⟩ |
    ⟨hge, hlt, x, y, z, heq, hx, hy, hz⟩ | ⟨hge, x, y, z, t, heq, hx, hy, hz, ht⟩
  all_goals
    rw [h] at heq
    cases heq
  · rw [if_pos (by omega), hc (by omega)]
    rfl
  · rw [if_neg (by omega), if_neg (by omega), if_pos (by omega)]
    have hcont : isContinuation y := isContinuation_iff.2 (by omega)
    simp only [List.cons_append, List.nil_append, hcont, if_true, charOfTwo, tailBits]
    rw [hc (by omega)]
    rfl
  · rw [if_neg (by omega), if_neg (by omega), if_neg (by omega), if_pos (by omega)]
    have hsecond : secondOfThree a y := secondOfThree_iff.2 (by omega)
    have hcont : isContinuation z := isContinuation_iff.2 (by omega)
    simp only [List.cons_append, List.nil_append, hsecond, hcont, if_true, charOfThree, tailBits]
    rw [hc (by omega)]
    rfl
  · rw [if_neg (by omega), if_neg (by omega), if_neg (by omega), if_neg (by omega)]
    have hsecond : secondOfFour a y := secondOfFour_iff.2 (by omega)
    have hcont : isContinuation z := isContinuation_iff.2 (by omega)
    have hcont' : isContinuation t := isContinuation_iff.2 (by omega)
    simp only [List.cons_append, List.nil_append, hsecond, hcont, hcont', if_true, charOfFour,
      tailBits]
    rw [hc (by omega)]
    rfl

/-- A byte below `0x80` is the encoding of the character with its number. This is the first of four
cases in which `pieceAt` finds a character. -/
theorem utf8EncodeChar_ofNat {a : UInt8} (ha : a.toNat ≤ 0x7F) :
    String.utf8EncodeChar (Char.ofNat a.toNat) = [a] := by
  have hn := toNat_ofNat (n := a.toNat) (by omega)
  rcases utf8EncodeChar_cases (Char.ofNat a.toNat) with ⟨-, x, heq, hx⟩ | ⟨hge, -⟩ | ⟨hge, -⟩ |
    ⟨hge, -⟩
  · rw [heq, UInt8.toNat_inj.1 (show x.toNat = a.toNat by omega)]
  all_goals omega

/-- Two bytes that are taken for a character are its encoding. The first byte is not below `0xC2`,
so the character does not fit into one byte. -/
theorem utf8EncodeChar_charOfTwo {a b : UInt8} (ha : 0xC2 ≤ a.toNat ∧ a.toNat ≤ 0xDF)
    (hb : isContinuation b) : String.utf8EncodeChar (charOfTwo a b) = [a, b] := by
  rw [isContinuation_iff] at hb
  have hn : (charOfTwo a b).toNat = a.toNat % 32 * 64 + b.toNat % 64 := by
    rw [charOfTwo, tailBits, toNat_ofNat (by omega)]
  rcases utf8EncodeChar_cases (charOfTwo a b) with ⟨hlt, -⟩ | ⟨-, -, x, y, heq, hx, hy⟩ |
    ⟨hge, -⟩ | ⟨hge, -⟩
  · omega
  · rw [heq, UInt8.toNat_inj.1 (show x.toNat = a.toNat by omega),
      UInt8.toNat_inj.1 (show y.toNat = b.toNat by omega)]
  all_goals omega

/-- Three bytes that are taken for a character are its encoding. The second byte is such that the
character does not fit into two bytes and is no surrogate. -/
theorem utf8EncodeChar_charOfThree {a b d : UInt8} (ha : 0xE0 ≤ a.toNat ∧ a.toNat ≤ 0xEF)
    (hb : secondOfThree a b) (hd : isContinuation d) :
    String.utf8EncodeChar (charOfThree a b d) = [a, b, d] := by
  rw [secondOfThree_iff] at hb
  rw [isContinuation_iff] at hd
  have hn : (charOfThree a b d).toNat
      = a.toNat % 16 * 4096 + b.toNat % 64 * 64 + d.toNat % 64 := by
    rw [charOfThree, tailBits, tailBits, toNat_ofNat (by omega)]
  rcases utf8EncodeChar_cases (charOfThree a b d) with ⟨hlt, -⟩ | ⟨-, hlt, -⟩ |
    ⟨-, -, x, y, z, heq, hx, hy, hz⟩ | ⟨hge, -⟩
  · omega
  · omega
  · rw [heq, UInt8.toNat_inj.1 (show x.toNat = a.toNat by omega),
      UInt8.toNat_inj.1 (show y.toNat = b.toNat by omega),
      UInt8.toNat_inj.1 (show z.toNat = d.toNat by omega)]
  · omega

/-- Four bytes that are taken for a character are its encoding. The second byte is such that the
character does not fit into three bytes and is not too large. -/
theorem utf8EncodeChar_charOfFour {a b d e : UInt8} (ha : 0xF0 ≤ a.toNat ∧ a.toNat ≤ 0xF4)
    (hb : secondOfFour a b) (hd : isContinuation d) (he : isContinuation e) :
    String.utf8EncodeChar (charOfFour a b d e) = [a, b, d, e] := by
  rw [secondOfFour_iff] at hb
  rw [isContinuation_iff] at hd he
  have hn : (charOfFour a b d e).toNat
      = a.toNat % 8 * 262144 + b.toNat % 64 * 4096 + d.toNat % 64 * 64 + e.toNat % 64 := by
    rw [charOfFour, tailBits, tailBits, tailBits, toNat_ofNat (by omega)]
  rcases utf8EncodeChar_cases (charOfFour a b d e) with ⟨hlt, -⟩ | ⟨-, hlt, -⟩ | ⟨-, hlt, -⟩ |
    ⟨-, x, y, z, t, heq, hx, hy, hz, ht⟩
  · omega
  · omega
  · omega
  · rw [heq, UInt8.toNat_inj.1 (show x.toNat = a.toNat by omega),
      UInt8.toNat_inj.1 (show y.toNat = b.toNat by omega),
      UInt8.toNat_inj.1 (show z.toNat = d.toNat by omega),
      UInt8.toNat_inj.1 (show t.toNat = e.toNat by omega)]

/-- A character that is found stands at the beginning of the bytes, in its own encoding. Since
nothing else is taken for a character, only encodings are decoded. -/
theorem eq_append_of_pieceAt {a : UInt8} {bytes : List UInt8} {c : Char} {width : Nat}
    (h : pieceAt a bytes = .char c width) :
    ∃ rest, a :: bytes = String.utf8EncodeChar c ++ rest ∧
      width = (String.utf8EncodeChar c).length := by
  have hfound {l rest : List UInt8} {d : Char} {n : Nat} (hl : String.utf8EncodeChar d = l)
      (hn : n = l.length) (hbytes : a :: bytes = l ++ rest)
      (hpiece : Piece.char d n = .char c width) :
      ∃ rest, a :: bytes = String.utf8EncodeChar c ++ rest ∧
        width = (String.utf8EncodeChar c).length := by
    cases hpiece
    exact ⟨rest, by rw [hl, hbytes], by rw [hl, hn]⟩
  unfold pieceAt at h
  simp only [UInt8.le_iff_toNat_le, UInt8.lt_iff_toNat_lt, Bool.or_eq_true, decide_eq_true_eq,
    UInt8.reduceToNat] at h
  split at h
  · next ha => exact hfound (utf8EncodeChar_ofNat ha) rfl rfl h
  · split at h
    · cases h
    · split at h
      · -- two bytes
        split at h
        · cases h
        · next b rest =>
          split at h
          · next hb => exact hfound (utf8EncodeChar_charOfTwo (by omega) hb) rfl rfl h
          · cases h
      · split at h
        · -- three bytes
          split at h
          · cases h
          · split at h
            · next hb =>
              split at h
              · cases h
              · split at h
                · next hd => exact hfound (utf8EncodeChar_charOfThree (by omega) hb hd) rfl rfl h
                · cases h
            · cases h
        · -- four bytes
          split at h
          · cases h
          · split at h
            · next hb =>
              split at h
              · cases h
              · split at h
                · next hd =>
                  split at h
                  · cases h
                  · split at h
                    · next he =>
                      exact hfound (utf8EncodeChar_charOfFour (by omega) hb hd he) rfl rfl h
                    · cases h
                · cases h
            · cases h

/-! ## Whole sequences -/

/-- To go on after some bytes that belong to the piece before is to take the rest of the bytes
apart. So `pieces` need not be followed byte by byte. -/
theorem piecesAfter_eq (skip : Nat) (bytes : List UInt8) :
    piecesAfter skip bytes = pieces (bytes.drop skip) := by
  induction bytes generalizing skip with
  | nil => simp [pieces, piecesAfter]
  | cons a bytes ih =>
    cases skip with
    | zero => rfl
    | succ skip => rw [piecesAfter, ih, List.drop_succ_cons]

/-- The first piece of a byte sequence starts at its first byte, and the other pieces are those of
what follows it. A piece has at least one byte. -/
theorem pieces_cons (a : UInt8) (bytes : List UInt8) :
    pieces (a :: bytes)
      = pieceAt a bytes :: pieces (bytes.drop ((pieceAt a bytes).width - 1)) := by
  rw [pieces, piecesAfter, piecesAfter_eq]

/-- A character in front of a byte sequence is its first piece, and the other pieces are those of
the sequence. They do not depend on the character. -/
theorem pieces_append (c : Char) (rest : List UInt8) :
    pieces (String.utf8EncodeChar c ++ rest)
      = .char c (String.utf8EncodeChar c).length :: pieces rest := by
  obtain ⟨a, bytes, h⟩ := List.exists_cons_of_ne_nil (String.utf8EncodeChar_ne_nil (c := c))
  rw [h, List.cons_append, pieces_cons, pieceAt_append h]
  simp [Piece.width]

/-- The encoding of a text starts with the encoding of its first character. It has nothing in front,
not even a byte order mark. -/
theorem encode_cons (c : Char) (text : List Char) :
    encode (c :: text) = String.utf8EncodeChar c ++ encode text := rfl

/-- Two texts one after the other have their encodings one after the other. Hence what is appended
to a file does not change the text that is there. -/
theorem encode_append (text more : List Char) :
    encode (text ++ more) = encode text ++ encode more :=
  List.flatMap_append

/-- Only encodings are accepted: every piece is a character in its own encoding
(`eq_append_of_pieceAt`), and a piece that is none ends the decoding with a fault. -/
theorem eq_encode_of_collect {start : Nat} {bytes : List UInt8} {text : List Char}
    (h : collect start (pieces bytes) = .ok text) : bytes = encode text := by
  -- A character takes more than one byte away, so the induction is on the number of bytes.
  induction hn : bytes.length using Nat.strongRecOn generalizing start bytes text with
  | _ n ih =>
    cases bytes with
    | nil => cases h; rfl
    | cons a bytes =>
      rw [pieces_cons] at h
      cases hpiece : pieceAt a bytes with
      | ill => rw [hpiece] at h; cases h
      | char c width =>
        obtain ⟨rest, hbytes, hwidth⟩ := eq_append_of_pieceAt hpiece
        have hdrop : bytes.drop (width - 1) = rest := by
          have hpos : 0 < width := by
            rw [hwidth]
            exact List.length_pos_iff.2 String.utf8EncodeChar_ne_nil
          rw [← List.drop_succ_cons (a := a), Nat.sub_add_cancel hpos, hbytes, hwidth,
            List.drop_left]
        have hshorter : rest.length < n := by
          rw [← hn, ← hdrop, List.length_drop, List.length_cons]
          omega
        rw [hpiece, Piece.width, hdrop, collect] at h
        split at h
        · next text' hrest =>
          cases h
          rw [hbytes, encode_cons, ← ih _ hshorter hrest rfl]
        · cases h

/-- Every encoding is accepted: its pieces are the characters of the text, and none of them is ill.
Where the sequence starts matters to faults only. -/
theorem collect_encode (start : Nat) (text : List Char) :
    collect start (pieces (encode text)) = .ok text := by
  induction text generalizing start with
  | nil => rfl
  | cons c text ih => rw [encode_cons, pieces_append, collect, ih]

/-- **Decoding is exact.** A byte sequence is decoded to a text if and only if it is the encoding of
that text. -/
theorem decode_eq_ok_iff {bytes : List UInt8} {text : List Char} :
    decode bytes = .ok text ↔ bytes = encode text := by
  constructor
  · exact eq_encode_of_collect
  · rintro rfl
    exact collect_encode 0 text

/-- An encoding has nothing that would be replaced, so a text comes back from its encoding even
where ill bytes would be tolerated. -/
theorem decodeLossy_encode (text : List Char) : decodeLossy (encode text) = text := by
  induction text with
  | nil => rfl
  | cons c text ih =>
    rw [decodeLossy, encode_cons, pieces_append, List.map_cons]
    exact congrArg _ ih

/-- A byte that writes a character by itself is part of no other character, since all bytes of
longer encodings have their first bit set. So a line feed is found in the bytes of a text. -/
theorem notMem_utf8EncodeChar {b : UInt8} {c d : Char} (hb : String.utf8EncodeChar c = [b])
    (h : d ≠ c) : b ∉ String.utf8EncodeChar d := by
  have hd : d.toNat ≠ c.toNat := fun heq => h (Char.toNat_inj.1 heq)
  have hc : c.toNat < 0x80 ∧ b.toNat = c.toNat := by
    rcases utf8EncodeChar_cases c with ⟨hlt, x, heq, hx⟩ | ⟨-, -, x, y, heq, -⟩ |
      ⟨-, -, x, y, z, heq, -⟩ | ⟨-, x, y, z, t, heq, -⟩
    · rw [hb] at heq
      cases heq
      exact ⟨hlt, hx⟩
    all_goals
      rw [hb] at heq
      cases heq
  intro hmem
  have hbyte : ∃ a ∈ String.utf8EncodeChar d, a.toNat = b.toNat := ⟨b, hmem, rfl⟩
  rcases utf8EncodeChar_cases d with ⟨-, x, heq, hx⟩ | ⟨-, -, x, y, heq, hx, hy⟩ |
    ⟨-, -, x, y, z, heq, hx, hy, hz⟩ | ⟨-, x, y, z, t, heq, hx, hy, hz, ht⟩
  all_goals
    simp only [heq, List.mem_cons, List.not_mem_nil, or_false, exists_eq_or_imp,
      exists_eq_left] at hbyte
    omega

end ActivityScript.Text.Utf8
