/-
  Well-formed bytes decode to the text that they are the bytes of.

  * `Utf8.encode_eq_flatMap`: the bytes of a text are those of its characters;
  * `Utf8.decodeChars_char`: the bytes of a character are one sequence, which does
    not break off;
  * `Utf8.decode_encode`: hence decoding undoes encoding;
  * `Utf8.WellFormed` are the bytes of a text.
-/
import DviMarkup.Text.Utf8

namespace DviMarkup.Utf8

/-! ## Bytes of a text -/

theorem toList_loop (bytes : ByteArray) (i : Nat) (acc : List UInt8) :
    ByteArray.toList.loop bytes i acc = acc.reverse ++ bytes.data.toList.drop i := by
  fun_induction ByteArray.toList.loop bytes i acc with
  | case1 i acc h ih =>
    have hlt : i < bytes.data.toList.length := h
    have hget : bytes.get! i = bytes.data.toList[i] := getElem!_pos bytes.data i h
    rw [ih, List.reverse_cons, List.append_assoc, hget, List.singleton_append, List.getElem_cons_drop]
  | case2 i acc h =>
    rw [List.drop_of_length_le (by simpa using h), List.append_nil]

theorem encode_eq_flatMap (s : String) : encode s = s.toList.flatMap String.utf8EncodeChar := by
  have h : s.toUTF8 = (s.toList.flatMap String.utf8EncodeChar).toByteArray := by
    conv => lhs; rw [← String.ofList_toList (s := s)]
    exact String.toByteArray_ofList
  rw [encode, h, ByteArray.toList, toList_loop, List.toList_data_toByteArray]
  rfl

/-- A text has as many bytes as its size says. -/
theorem length_encode (s : String) : (encode s).length = s.utf8ByteSize := by
  rw [encode, ByteArray.toList, toList_loop]
  rfl

theorem encode_append (s t : String) : encode (s ++ t) = encode s ++ encode t := by
  rw [encode_eq_flatMap, String.toList_append, List.flatMap_append, ← encode_eq_flatMap,
    ← encode_eq_flatMap]

/-! ## Bytes of a character -/

/-- A sequence that does not break off is one character. -/
theorem decodeChars_sequence {b : UInt8} {l : Lead} {following rest : List UInt8} (hb : ¬b < 0x80)
    (hl : lead? b = some l) (htrail : trail l.count l.low l.high (following ++ rest) = following)
    (hlen : following.length = l.count) :
    decodeChars (b :: (following ++ rest)) = Char.ofNat (codePoint l.bits following) :: decodeChars rest := by
  rw [decodeChars, if_neg hb, hl]
  simp only [htrail, hlen, if_true]
  rw [← hlen, List.drop_left]

theorem trail_cons {count : Nat} {low high b : UInt8} {rest : List UInt8} (h : low ≤ b ∧ b ≤ high) :
    trail (count + 1) low high (b :: rest) = b :: trail count 0x80 0xBF rest := by
  rw [trail, if_pos h]

theorem le_ofNat {low high : UInt8} {n : Nat} (h : low.toNat ≤ n ∧ n ≤ high.toNat) :
    low ≤ UInt8.ofNat n ∧ UInt8.ofNat n ≤ high := by
  have hn : (UInt8.ofNat n).toNat = n := UInt8.toNat_ofNat_of_lt' (Nat.lt_of_le_of_lt h.2 high.toNat_lt)
  rw [UInt8.le_iff_toNat_le, UInt8.le_iff_toNat_le, hn]
  exact h

theorem not_ofNat_lt {n : Nat} (hlo : 0x80 ≤ n) (hhi : n < 256) : ¬UInt8.ofNat n < 0x80 := by
  rw [UInt8.lt_iff_toNat_lt, UInt8.toNat_ofNat_of_lt' hhi]
  change ¬n < 128
  omega

theorem lead?_two {n : Nat} (hlo : 0xC2 ≤ n) (hhi : n < 0xE0) :
    lead? (UInt8.ofNat n) = some ⟨1, 0x80, 0xBF, n - 0xC0⟩ := by
  simp only [lead?, UInt8.toNat_ofNat_of_lt' (show n < UInt8.size by simp only [UInt8.size]; omega)]
  rw [if_neg (by omega), if_pos hhi]

/-- After a lead byte of a sequence of three, the bytes of an overlong form and of a
    surrogate do not fit. -/
theorem lead?_three {n b : Nat} (hlo : 0xE0 ≤ n) (hhi : n < 0xF0) (hb : 0x80 ≤ b ∧ b ≤ 0xBF)
    (hlong : n = 0xE0 → 0xA0 ≤ b) (hsurrogate : n = 0xED → b ≤ 0x9F) :
    ∃ low high, lead? (UInt8.ofNat n) = some ⟨2, low, high, n - 0xE0⟩ ∧
      low ≤ UInt8.ofNat b ∧ UInt8.ofNat b ≤ high := by
  simp only [lead?, UInt8.toNat_ofNat_of_lt' (show n < UInt8.size by simp only [UInt8.size]; omega)]
  rw [if_neg (by omega), if_neg (by omega)]
  by_cases h₁ : n = 0xE0
  · rw [if_pos h₁]
    exact ⟨0xA0, 0xBF, by rw [h₁], le_ofNat ⟨hlong h₁, hb.2⟩⟩
  rw [if_neg h₁]
  by_cases h₂ : n = 0xED
  · rw [if_pos h₂]
    exact ⟨0x80, 0x9F, by rw [h₂], le_ofNat ⟨hb.1, hsurrogate h₂⟩⟩
  rw [if_neg h₂, if_pos hhi]
  exact ⟨_, _, rfl, le_ofNat hb⟩

/-- After a lead byte of a sequence of four, the bytes of an overlong form and of a
    number that is too large do not fit. -/
theorem lead?_four {n b : Nat} (hlo : 0xF0 ≤ n) (hhi : n ≤ 0xF4) (hb : 0x80 ≤ b ∧ b ≤ 0xBF)
    (hlong : n = 0xF0 → 0x90 ≤ b) (hlarge : n = 0xF4 → b ≤ 0x8F) :
    ∃ low high, lead? (UInt8.ofNat n) = some ⟨3, low, high, n - 0xF0⟩ ∧
      low ≤ UInt8.ofNat b ∧ UInt8.ofNat b ≤ high := by
  simp only [lead?, UInt8.toNat_ofNat_of_lt' (show n < UInt8.size by simp only [UInt8.size]; omega)]
  rw [if_neg (by omega), if_neg (by omega), if_neg (by omega), if_neg (by omega), if_neg (by omega)]
  by_cases h₁ : n = 0xF0
  · rw [if_pos h₁]
    exact ⟨0x90, 0xBF, by rw [h₁], le_ofNat ⟨hlong h₁, hb.2⟩⟩
  rw [if_neg h₁]
  by_cases h₂ : n < 0xF4
  · rw [if_pos h₂]
    exact ⟨_, _, rfl, le_ofNat hb⟩
  have h₃ : n = 0xF4 := by omega
  rw [if_neg h₂, if_pos h₃]
  exact ⟨0x80, 0x8F, by rw [h₃], le_ofNat ⟨hb.1, hlarge h₃⟩⟩

theorem trail_zero (low high : UInt8) (rest : List UInt8) : trail 0 low high rest = [] := by
  rw [trail]

/-- **The bytes of a character are read as that character.** -/
theorem decodeChars_char (c : Char) (rest : List UInt8) :
    decodeChars (String.utf8EncodeChar c ++ rest) = c :: decodeChars rest := by
  have hvalid : c.val.toNat < 0xD800 ∨ 0xDFFF < c.val.toNat ∧ c.val.toNat < 0x110000 := c.valid
  have hchar : Char.ofNat c.val.toNat = c := Char.ofNat_toNat c
  unfold String.utf8EncodeChar
  generalize c.val.toNat = v at hvalid hchar ⊢
  have hnat : ∀ n, n < 256 → (UInt8.ofNat n).toNat = n := fun n h => UInt8.toNat_ofNat_of_lt' h
  have hbits : ∀ m, (UInt8.ofNat (m % 0x40 + 0x80)).toNat = m % 0x40 + 0x80 := fun m => hnat _ (by omega)
  have hfollow : ∀ m, (0x80 : UInt8) ≤ UInt8.ofNat (m % 0x40 + 0x80) ∧ UInt8.ofNat (m % 0x40 + 0x80) ≤ 0xBF :=
    fun m => le_ofNat ⟨by change 128 ≤ _; omega, by change _ ≤ 191; omega⟩
  dsimp only
  split
  · rename_i h
    have hlt : UInt8.ofNat v < 0x80 := by
      rw [UInt8.lt_iff_toNat_lt, hnat v (by omega)]
      change v < 128
      omega
    rw [List.singleton_append, decodeChars, if_pos hlt, hnat v (by omega), hchar]
  · split
    · rw [List.cons_append, decodeChars_sequence (not_ofNat_lt (by omega) (by omega))
        (lead?_two (by omega) (by omega))
        (by rw [List.singleton_append, trail_cons (hfollow _), trail_zero]) rfl]
      simp only [codePoint, List.foldl_cons, List.foldl_nil, hbits]
      rw [← hchar]
      congr 2
      omega
    · split
      · obtain ⟨low, high, hlead, hfirst⟩ := lead?_three (n := v / 4096 % 0x10 + 0xe0)
          (b := v / 64 % 0x40 + 0x80) (by omega) (by omega) (by omega) (by omega) (by omega)
        rw [List.cons_append, decodeChars_sequence (not_ofNat_lt (by omega) (by omega)) hlead
          (by rw [List.cons_append, trail_cons hfirst, List.singleton_append, trail_cons (hfollow _),
            trail_zero]) rfl]
        simp only [codePoint, List.foldl_cons, List.foldl_nil, hbits]
        rw [← hchar]
        congr 2
        omega
      · obtain ⟨low, high, hlead, hfirst⟩ := lead?_four (n := v / 262144 % 0x08 + 0xf0)
          (b := v / 4096 % 0x40 + 0x80) (by omega) (by omega) (by omega) (by omega) (by omega)
        rw [List.cons_append, decodeChars_sequence (not_ofNat_lt (by omega) (by omega)) hlead
          (by rw [List.cons_append, trail_cons hfirst, List.cons_append, trail_cons (hfollow _),
            List.singleton_append, trail_cons (hfollow _), trail_zero]) rfl]
        simp only [codePoint, List.foldl_cons, List.foldl_nil, hbits]
        rw [← hchar]
        congr 2
        omega

theorem decodeChars_flatMap (cs : List Char) :
    decodeChars (cs.flatMap String.utf8EncodeChar) = cs := by
  induction cs with
  | nil => rw [List.flatMap_nil, decodeChars]
  | cons c cs ih => rw [List.flatMap_cons, decodeChars_char, ih]

/-- **Decoding undoes encoding.** -/
theorem decode_encode (s : String) : decode (encode s) = s := by
  rw [decode, encode_eq_flatMap, decodeChars_flatMap, String.ofList_toList]

/-- Whether bytes are those of a text. -/
def WellFormed (bytes : List UInt8) : Prop := ∃ s, encode s = bytes

theorem WellFormed.encode_decode {bytes : List UInt8} (h : WellFormed bytes) :
    encode (decode bytes) = bytes := by
  obtain ⟨s, rfl⟩ := h
  rw [Utf8.decode_encode]

end DviMarkup.Utf8
