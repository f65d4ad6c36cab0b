/-
  The sequences of bytes that are read as one character each.

  A decoder that is given bytes in two parts reads them as it would read them together,
  unless the parts meet inside of a sequence.  Then the character of the sequence is
  lost, and several replacement characters stand in its place.

  * `sequences` are the sequences of a byte list and `character` is what one is read as:
    `decodeChars_eq_map`;
  * `sequences_append_or`: the sequences of two byte lists put together are those of the
    one and of the other, or the first list ends inside of a sequence;
  * `decodeChars_append_iff`: in the first case both are read the same apart and
    together, in the second there are more replacement characters if they are read
    apart.
-/
import DviMarkup.Proofs.Text.Utf8

namespace DviMarkup.Utf8

/-! ## Sequences -/

/-- The bytes that belong to the sequence of a byte, out of those after it. -/
def following (b : UInt8) (rest : List UInt8) : List UInt8 :=
  if b < 0x80 then []
  else match lead? b with
    | none => []
    | some l => trail l.count l.low l.high rest

/-- The sequences of a byte list. -/
def sequences : List UInt8 → List (List UInt8)
  | [] => []
  | b :: rest =>
    (b :: following b rest) :: sequences (rest.drop (following b rest).length)
termination_by bytes => bytes.length
decreasing_by
  rw [List.length_drop, List.length_cons]
  omega

/-- The character that a sequence is read as. -/
def character : List UInt8 → Char
  | [] => replacement
  | b :: rest =>
    if b < 0x80 then Char.ofNat b.toNat
    else match lead? b with
      | none => replacement
      | some l =>
        if rest.length = l.count then Char.ofNat (codePoint l.bits rest) else replacement

@[simp] theorem sequences_nil : sequences [] = [] := by
  rw [sequences]

theorem sequences_cons (b : UInt8) (rest : List UInt8) :
    sequences (b :: rest) =
      (b :: following b rest) :: sequences (rest.drop (following b rest).length) := by
  rw [sequences]

theorem decodeChars_cons (b : UInt8) (rest : List UInt8) :
    decodeChars (b :: rest) =
      character (b :: following b rest) :: decodeChars (rest.drop (following b rest).length) := by
  rw [decodeChars, character, following]
  by_cases hb : b < 0x80
  · simp only [if_pos hb, List.length_nil, List.drop_zero]
  · simp only [if_neg hb]
    cases lead? b <;> rfl

/-- **Each sequence is read as one character.** -/
theorem decodeChars_eq_map (bytes : List UInt8) :
    decodeChars bytes = (sequences bytes).map character := by
  induction bytes using sequences.induct with
  | case1 => rw [decodeChars, sequences_nil, List.map_nil]
  | case2 b rest ih => rw [decodeChars_cons, sequences_cons, List.map_cons, ih]

/-- The bytes of a text are read apart from those after them. -/
theorem decodeChars_flatMap_append (cs : List Char) (bytes : List UInt8) :
    decodeChars (cs.flatMap String.utf8EncodeChar ++ bytes) = cs ++ decodeChars bytes := by
  induction cs with
  | nil => rfl
  | cons c cs ih => rw [List.flatMap_cons, List.append_assoc, decodeChars_char, ih, List.cons_append]

/-! ## Bytes that go on with a sequence -/

theorem trail_isPrefix (count : Nat) (low high : UInt8) (rest : List UInt8) :
    trail count low high rest <+: rest := by
  induction count generalizing low high rest with
  | zero => exact List.nil_prefix
  | succ n ih =>
    cases rest with
    | nil => exact List.nil_prefix
    | cons b rest =>
      rw [trail]
      split
      · exact List.cons_prefix_cons.mpr ⟨rfl, ih 0x80 0xBF rest⟩
      · exact List.nil_prefix

theorem length_trail_le (count : Nat) (low high : UInt8) (rest : List UInt8) :
    (trail count low high rest).length ≤ count := by
  induction count generalizing low high rest with
  | zero => rw [trail_zero]; exact Nat.le_refl 0
  | succ n ih =>
    cases rest with
    | nil => exact Nat.zero_le _
    | cons b rest =>
      rw [trail]
      split
      · exact Nat.succ_le_succ (ih 0x80 0xBF rest)
      · exact Nat.zero_le _

theorem mem_trail {count : Nat} {low high : UInt8} (hlow : 0x80 ≤ low) (hhigh : high ≤ 0xBF)
    {rest : List UInt8} {c : UInt8} (h : c ∈ trail count low high rest) : 0x80 ≤ c ∧ c ≤ 0xBF := by
  induction count generalizing low high rest with
  | zero => rw [trail_zero] at h; cases h
  | succ n ih =>
    cases rest with
    | nil => rw [trail] at h; cases h
    | cons b rest =>
      rw [trail] at h
      split at h
      case isTrue hb =>
        rcases List.mem_cons.mp h with rfl | h
        · exact ⟨UInt8.le_trans hlow hb.1, UInt8.le_trans hb.2 hhigh⟩
        · exact ih (UInt8.le_refl _) (UInt8.le_refl _) h
      case isFalse => cases h

/-- The bytes that go on with a sequence in two lists put together: they are those in the
    first, or all of the first and some of the second. -/
theorem trail_append (count : Nat) (low high : UInt8) (a b : List UInt8) :
    trail count low high (a ++ b) = trail count low high a ∨
      trail count low high a = a ∧ ∃ c rest, trail count low high (a ++ b) = a ++ c :: rest := by
  induction count generalizing low high a with
  | zero => exact .inl (by rw [trail_zero, trail_zero])
  | succ n ih =>
    cases a with
    | nil =>
      cases h : trail (n + 1) low high b with
      | nil => exact .inl (by rw [List.nil_append, h, trail])
      | cons c rest => exact .inr ⟨by rw [trail], c, rest, by rw [List.nil_append, h, List.nil_append]⟩
    | cons d a =>
      by_cases hd : low ≤ d ∧ d ≤ high
      · rw [List.cons_append, trail_cons hd, trail_cons hd]
        rcases ih 0x80 0xBF a with h | ⟨ha, c, rest, h⟩
        · exact .inl (by rw [h])
        · exact .inr ⟨by rw [ha], c, rest, by rw [h, List.cons_append]⟩
      · exact .inl (by rw [List.cons_append, trail, trail, if_neg hd, if_neg hd])

/-- After a lead byte only bytes follow that begin no sequence. -/
theorem bounds_of_lead? {b : UInt8} {l : Lead} (h : lead? b = some l) :
    0x80 ≤ l.low ∧ l.high ≤ 0xBF := by
  unfold lead? at h
  dsimp only at h
  repeat' split at h
  all_goals cases h
  all_goals exact ⟨by dsimp only; decide, by dsimp only; decide⟩

theorem lead?_continuation {b : UInt8} (h : 0x80 ≤ b ∧ b ≤ 0xBF) : lead? b = none := by
  have hb : b.toNat ≤ 191 := UInt8.le_iff_toNat_le.mp h.2
  rw [lead?, if_pos (by omega)]

/-- A byte that goes on with a sequence is read as a replacement character if it does not
    stand in one. -/
theorem decodeChars_continuation {continuation : List UInt8}
    (h : ∀ c ∈ continuation, 0x80 ≤ c ∧ c ≤ 0xBF) (rest : List UInt8) :
    decodeChars (continuation ++ rest) =
      List.replicate continuation.length replacement ++ decodeChars rest := by
  induction continuation with
  | nil => rfl
  | cons c continuation ih =>
    have hc := h c List.mem_cons_self
    rw [List.cons_append, decodeChars, if_neg (UInt8.not_lt.mpr hc.1), lead?_continuation hc]
    rw [ih fun d hd => h d (List.mem_cons_of_mem c hd)]
    rfl

/-! ## Two lists put together -/

theorem following_isPrefix (b : UInt8) (rest : List UInt8) : following b rest <+: rest := by
  unfold following
  split
  · exact List.nil_prefix
  · split
    · exact List.nil_prefix
    · exact trail_isPrefix _ _ _ rest

/-- Each byte belongs to one sequence. -/
theorem flatten_sequences (bytes : List UInt8) : (sequences bytes).flatten = bytes := by
  induction bytes using sequences.induct with
  | case1 => rw [sequences_nil, List.flatten_nil]
  | case2 b rest ih =>
    rw [sequences_cons, List.flatten_cons, ih, List.cons_append,
      List.prefix_iff_eq_append.mp (following_isPrefix b rest)]

/-- The sequence of a byte ends in the list, or it takes up all of the list, is not yet a
    character and goes on in what comes after. -/
theorem following_append (b : UInt8) (rest more : List UInt8) :
    following b (rest ++ more) = following b rest ∨
      following b rest = rest ∧ character (b :: rest) = replacement ∧
        ∃ continuation after, more = continuation ++ after ∧ continuation ≠ [] ∧
          (∀ c ∈ continuation, 0x80 ≤ c ∧ c ≤ 0xBF) ∧
          following b (rest ++ more) = rest ++ continuation := by
  unfold following character
  by_cases hb : b < 0x80
  · exact .inl (by rw [if_pos hb, if_pos hb])
  rw [if_neg hb, if_neg hb]
  cases hl : lead? b with
  | none => exact .inl rfl
  | some l =>
    dsimp only
    rcases trail_append l.count l.low l.high rest more with h | ⟨hrest, c, continuation, h⟩
    · exact .inl h
    have hprefix := trail_isPrefix l.count l.low l.high (rest ++ more)
    have hlength := length_trail_le l.count l.low l.high (rest ++ more)
    rw [h] at hprefix hlength
    obtain ⟨after, hafter⟩ := (List.prefix_append_right_inj rest).mp hprefix
    refine .inr ⟨hrest, ?_, c :: continuation, after, hafter.symm, List.cons_ne_nil _ _, ?_, h⟩
    · rw [List.length_append, List.length_cons] at hlength
      rw [if_neg hb, hl]
      exact if_neg (by omega)
    · intro d hd
      obtain ⟨hlow, hhigh⟩ := bounds_of_lead? hl
      exact mem_trail hlow hhigh (h ▸ List.mem_append_right rest hd)

/-- The sequences of two lists are those of both put together, or a sequence goes on from
    the first into the second, and is read as more replacement characters apart than
    together. -/
theorem sequences_append_or (a b : List UInt8) :
    sequences (a ++ b) = sequences a ++ sequences b ∨
      (decodeChars (a ++ b)).count replacement <
        (decodeChars a ++ decodeChars b).count replacement := by
  induction a using sequences.induct with
  | case1 => exact .inl (by rw [sequences_nil, List.nil_append, List.nil_append])
  | case2 d rest ih =>
    rcases following_append d rest b with h | ⟨hrest, hlost, continuation, after, rfl, hne, hmem, h⟩
    · -- the sequence ends in the first list
      have hdrop : (rest ++ b).drop (following d rest).length =
          rest.drop (following d rest).length ++ b :=
        List.drop_append_of_le_length (following_isPrefix d rest).length_le
      rw [List.cons_append, sequences_cons, sequences_cons, decodeChars_cons, decodeChars_cons, h,
        hdrop]
      rcases ih with ih | ih
      · exact .inl (by rw [ih, List.cons_append])
      · refine .inr ?_
        rw [List.cons_append, List.count_cons, List.count_cons]
        omega
    · -- what follows in the second list is lost
      refine .inr ?_
      have hdrop : (rest ++ (continuation ++ after)).drop (rest ++ continuation).length = after := by
        rw [← List.append_assoc, List.drop_left]
      have hpos : 0 < continuation.length := List.length_pos_iff.mpr hne
      rw [List.cons_append, decodeChars_cons, decodeChars_cons, h, hdrop, hrest, hlost,
        List.drop_length, decodeChars, decodeChars_continuation hmem]
      simp only [List.count_cons, List.cons_append, List.nil_append, List.count_append,
        List.count_replicate_self, beq_self_eq_true, if_true]
      split <;> omega

/-- **Two lists are read the same apart and together exactly if no sequence goes on from the
    first into the second.** -/
theorem decodeChars_append_iff (a b : List UInt8) :
    decodeChars (a ++ b) = decodeChars a ++ decodeChars b ↔
      sequences (a ++ b) = sequences a ++ sequences b := by
  constructor
  · intro h
    refine (sequences_append_or a b).resolve_right fun hlt => ?_
    rw [h] at hlt
    exact Nat.lt_irrefl _ hlt
  · intro h
    rw [decodeChars_eq_map, decodeChars_eq_map, decodeChars_eq_map, h, List.map_append]

end DviMarkup.Utf8
