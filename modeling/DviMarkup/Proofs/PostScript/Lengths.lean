/-
  How many bytes the texts of the grammar have.

  Scanning goes byte by byte, while the grammar is about characters.  Both come to the same,
  since all characters that matter have one byte, and this byte is in no other character.

  * `bytes` are the bytes of characters, and `eq_of_mem_utf8EncodeChar` tells which of them
    matter;
  * `rawLength_word` and `commentLength_words` are the lengths of words and of comments;
  * `Climbs` tells how a text leads from one depth of delimiters to another, and a text is
    closed or leads to some depth (`Enclosure.closes_or_climbs`);
  * `Enclosure.length_climbs` is the length of such a text.
-/
import DviMarkup.Proofs.PostScript.Grammar
import DviMarkup.Proofs.PostScript.Pieces
import DviMarkup.Proofs.Text.Utf8

namespace DviMarkup.PostScript

/-! ## Bytes -/

/-- The bytes of characters. -/
def bytes (text : List Char) : List UInt8 :=
  text.flatMap String.utf8EncodeChar

theorem encode_eq_bytes (s : String) : Utf8.encode s = bytes s.toList :=
  Utf8.encode_eq_flatMap s

theorem decode_bytes (text : List Char) : Utf8.decode (bytes text) = String.ofList text :=
  congrArg String.ofList (Utf8.decodeChars_flatMap text)

@[simp] theorem bytes_nil : bytes [] = [] := rfl

theorem bytes_cons (c : Char) (text : List Char) :
    bytes (c :: text) = String.utf8EncodeChar c ++ bytes text :=
  List.flatMap_cons

theorem bytes_append (a b : List Char) : bytes (a ++ b) = bytes a ++ bytes b :=
  List.flatMap_append

theorem utf8EncodeChar_ascii {c : Char} (h : c.toNat < 128) :
    String.utf8EncodeChar c = [byte c] := by
  have small : c.val.toNat ≤ 127 := Nat.le_of_lt_succ h
  unfold String.utf8EncodeChar
  exact if_pos small

theorem bytes_cons_ascii {c : Char} (h : c.toNat < 128) (text : List Char) :
    bytes (c :: text) = byte c :: bytes text := by
  rw [bytes_cons, utf8EncodeChar_ascii h, List.singleton_append]

/-- The bytes of any other character are great ones. -/
theorem le_of_mem_utf8EncodeChar {c : Char} (h : 128 ≤ c.toNat) {x : UInt8}
    (hx : x ∈ String.utf8EncodeChar c) : 128 ≤ x.toNat := by
  have great (n : Nat) (low : 128 ≤ n) (high : n < 256) : 128 ≤ (UInt8.ofNat n).toNat := by
    rwa [UInt8.toNat_ofNat_of_lt' high]
  have large : ¬c.val.toNat ≤ 127 := Nat.not_le.mpr h
  unfold String.utf8EncodeChar at hx
  simp only [if_neg large] at hx
  split_ifs at hx <;> simp only [List.mem_cons, List.not_mem_nil, or_false] at hx
  · rcases hx with rfl | rfl <;> exact great _ (by omega) (by omega)
  · rcases hx with rfl | rfl | rfl <;> exact great _ (by omega) (by omega)
  · rcases hx with rfl | rfl | rfl | rfl <;> exact great _ (by omega) (by omega)

theorem toNat_byte {c : Char} (h : c.toNat < 128) : (byte c).toNat = c.toNat :=
  UInt8.toNat_ofNat_of_lt' (Nat.lt_trans h (by decide))

theorem ne_byte_of_le {b : UInt8} (h : 128 ≤ b.toNat) {d : Char} (hd : d.toNat < 128) :
    b ≠ byte d := by
  rintro rfl
  rw [toNat_byte hd] at h
  exact Nat.not_le.mpr hd h

/-- The bytes of characters that matter are in no others. -/
theorem eq_of_mem_utf8EncodeChar {c d : Char} (hd : d.toNat < 128)
    (h : byte d ∈ String.utf8EncodeChar c) : c = d := by
  by_cases hc : c.toNat < 128
  · rw [utf8EncodeChar_ascii hc, List.mem_singleton] at h
    rw [← Char.toNat_inj, ← toNat_byte hc, ← toNat_byte hd, h]
  · exact absurd rfl (ne_byte_of_le (le_of_mem_utf8EncodeChar (Nat.not_lt.mp hc) h) hd)

/-- After the first byte of a character there are only great ones. -/
theorem exists_utf8EncodeChar (c : Char) :
    ∃ b later, String.utf8EncodeChar c = b :: later ∧ ∀ x ∈ later, 128 ≤ x.toNat := by
  by_cases hc : c.toNat < 128
  · exact ⟨byte c, [], utf8EncodeChar_ascii hc, nofun⟩
  · cases h : String.utf8EncodeChar c with
    | nil => exact absurd h String.utf8EncodeChar_ne_nil
    | cons b later =>
      refine ⟨b, later, rfl, fun x hx => le_of_mem_utf8EncodeChar (Nat.not_lt.mp hc) ?_⟩
      rw [h]
      exact List.mem_cons_of_mem b hx

/-! ## Words -/

/-- Whether a byte goes on with a word. -/
def Ordinary (b : UInt8) : Prop :=
  ¬(isBlank b = true ∨ isDelimiter b = true) ∧ b ≠ backslash

theorem exists_of_isBlank {b : UInt8} (h : isBlank b = true) :
    ∃ d, isSpace d = true ∧ b = byte d := by
  simp only [isBlank, Bool.or_eq_true, decide_eq_true_eq] at h
  rcases h with ((((rfl | rfl) | rfl) | rfl) | rfl) | rfl
  · exact ⟨' ', rfl, rfl⟩
  · exact ⟨'\t', rfl, rfl⟩
  · exact ⟨'\n', rfl, rfl⟩
  · exact ⟨'\r', rfl, rfl⟩
  · exact ⟨'\x0C', rfl, rfl⟩
  · exact ⟨'\x00', rfl, rfl⟩

theorem exists_of_isDelimiter {b : UInt8} (h : isDelimiter b = true) :
    ∃ d, isSpecial d = true ∧ b = byte d := by
  obtain ⟨d, hd, heq⟩ := List.any_eq_true.mp h
  exact ⟨d, List.contains_iff_mem.mpr hd, (of_decide_eq_true heq).symm⟩

theorem ascii_of_isSpace {c : Char} (h : isSpace c = true) :
    c.toNat < 128 ∧ isBlank (byte c) = true := by
  have spaces : (" \t\n\r\x0C\x00".toList.all fun d =>
      d.toNat < 128 && isBlank (byte d)) = true := by decide
  have hc : (decide (c.toNat < 128) && isBlank (byte c)) = true := of_contains spaces h
  rwa [Bool.and_eq_true, decide_eq_true_eq] at hc

theorem ascii_of_isSpecial {c : Char} (h : isSpecial c = true) :
    c.toNat < 128 ∧ isDelimiter (byte c) = true := by
  have specials : ("()<>[]\x7b\x7d/%".toList.all fun d =>
      d.toNat < 128 && isDelimiter (byte d)) = true := by decide
  have hc : (decide (c.toNat < 128) && isDelimiter (byte c)) = true := of_contains specials h
  rwa [Bool.and_eq_true, decide_eq_true_eq] at hc

theorem isSpace_of_mem {c : Char} {b : UInt8} (hb : b ∈ String.utf8EncodeChar c)
    (h : isBlank b = true) : isSpace c = true := by
  obtain ⟨d, hd, rfl⟩ := exists_of_isBlank h
  rwa [eq_of_mem_utf8EncodeChar (ascii_of_isSpace hd).1 hb]

theorem isSpecial_of_mem {c : Char} {b : UInt8} (hb : b ∈ String.utf8EncodeChar c)
    (h : isDelimiter b = true) : isSpecial c = true := by
  obtain ⟨d, hd, rfl⟩ := exists_of_isDelimiter h
  rwa [eq_of_mem_utf8EncodeChar (ascii_of_isSpecial hd).1 hb]

theorem ordinary_of_mem {c : Char} {b : UInt8} (hb : b ∈ String.utf8EncodeChar c)
    (hc : endsWord c = false ∧ c ≠ '\\') : Ordinary b := by
  obtain ⟨space, special⟩ := Bool.or_eq_false_iff.mp hc.1
  refine ⟨?_, ?_⟩
  · rintro (blank | delimiter)
    · exact ne_true_of_eq_false space (isSpace_of_mem hb blank)
    · exact ne_true_of_eq_false special (isSpecial_of_mem hb delimiter)
  · rintro rfl
    exact hc.2 (eq_of_mem_utf8EncodeChar (d := '\\') (by decide) hb)

theorem ordinary_of_le {b : UInt8} (hb : 128 ≤ b.toNat) : Ordinary b := by
  refine ⟨?_, ne_byte_of_le hb (by decide)⟩
  rintro (blank | delimiter)
  · obtain ⟨d, hd, rfl⟩ := exists_of_isBlank blank
    exact ne_byte_of_le hb (ascii_of_isSpace hd).1 rfl
  · obtain ⟨d, hd, rfl⟩ := exists_of_isDelimiter delimiter
    exact ne_byte_of_le hb (ascii_of_isSpecial hd).1 rfl

/-- Bytes can be counted one part after the other. -/
theorem map_add_map_add (length : Except Fault Nat) (m n : Nat) :
    (length.map (· + m)).map (· + n) = length.map (· + (m + n)) := by
  cases length with
  | error fault => rfl
  | ok k => exact congrArg Except.ok (Nat.add_assoc k m n)

theorem map_add_zero (length : Except Fault Nat) : length.map (· + 0) = length := by
  cases length <;> rfl

theorem map_add_one_inj {length length' : Except Fault Nat}
    (h : length.map (· + 1) = length'.map (· + 1)) : length = length' := by
  cases length <;> cases length' <;> cases h <;> rfl

theorem rawLength_ordinary {front : List UInt8} (h : ∀ b ∈ front, Ordinary b) (x : List UInt8) :
    rawLength (front ++ x) = (rawLength x).map (· + front.length) := by
  induction front with
  | nil => exact (map_add_zero _).symm
  | cons b front ih =>
    obtain ⟨⟨stops, escape⟩, later⟩ := List.forall_mem_cons.mp h
    rw [List.cons_append, rawLength.eq_def]
    dsimp only
    rw [if_neg stops, if_neg escape, ih later, map_add_map_add]
    rfl

theorem rawLength_escape {b : UInt8} {later : List UInt8} (h : ∀ x ∈ later, 128 ≤ x.toNat)
    (x : List UInt8) :
    rawLength (backslash :: b :: (later ++ x)) = (rawLength x).map (· + (later.length + 2)) := by
  have step : rawLength (backslash :: b :: (later ++ x)) =
      (rawLength (later ++ x)).map (· + 2) := rfl
  rw [step, rawLength_ordinary fun y hy => ordinary_of_le (h y hy), map_add_map_add]

theorem rawLength_backslash (x : List UInt8) :
    rawLength (backslash :: x) = (restLength backslash x).map (· + 1) := by
  cases x with
  | nil => rfl
  | cons b x => exact (map_add_map_add _ 1 1).symm

/-- A word is scanned to its end and then what comes after it. -/
theorem rawLength_word {word : List Char} (h : Word word) (x : List UInt8) :
    rawLength (bytes word ++ x) = (rawLength x).map (· + (bytes word).length) := by
  unfold Word at h
  fun_induction unescaped word with
  | case1 => exact (map_add_zero _).symm
  | case2 c word ih =>
    obtain ⟨b, later, hc, great⟩ := exists_utf8EncodeChar c
    rw [bytes_cons_ascii (by decide : '\\'.toNat < 128), bytes_cons, hc, List.cons_append,
      List.cons_append, List.cons_append, List.append_assoc]
    refine (rawLength_escape great _).trans ?_
    rw [ih h, map_add_map_add]
    refine congrArg (fun n => (rawLength x).map (· + n)) ?_
    simp only [List.length_cons, List.length_append]
    omega
  | case3 c word notPair ih =>
    obtain ⟨hc, hword⟩ := List.forall_mem_cons.mp h
    rw [bytes_cons, List.append_assoc, rawLength_ordinary fun b hb => ordinary_of_mem hb hc,
      ih hword, map_add_map_add, List.length_append, Nat.add_comm]

theorem ascii_of_endsWord {c : Char} (h : endsWord c = true) :
    c.toNat < 128 ∧ (isBlank (byte c) = true ∨ isDelimiter (byte c) = true) := by
  rcases Bool.or_eq_true_iff.mp h with hc | hc
  · exact (ascii_of_isSpace hc).imp_right .inl
  · exact (ascii_of_isSpecial hc).imp_right .inr

theorem stops_bytes {text : List Char} (h : AtEnd text) : Stops (bytes text) := by
  cases text with
  | nil => trivial
  | cons c text =>
    obtain ⟨ascii, stops⟩ := ascii_of_endsWord (h c rfl)
    rw [bytes_cons_ascii ascii]
    exact stops

/-! ## Comments -/

theorem ascii_of_endsComment {c : Char} (h : endsComment c = true) :
    c.toNat < 128 ∧ isLineEnd (byte c) = true := by
  simp only [endsComment, Bool.or_eq_true, decide_eq_true_eq] at h
  rcases h with rfl | rfl <;> decide

theorem commentLength_words {words : List Char} (h : ∀ c ∈ words, endsComment c = false)
    (x : List UInt8) :
    commentLength (bytes words ++ x) = commentLength x + (bytes words).length := by
  have bytewise (front : List UInt8) (h : ∀ b ∈ front, isLineEnd b = false) (x : List UInt8) :
      commentLength (front ++ x) = commentLength x + front.length := by
    induction front with
    | nil => rfl
    | cons b front ih =>
      obtain ⟨hb, later⟩ := List.forall_mem_cons.mp h
      rw [List.cons_append, commentLength, if_neg (ne_true_of_eq_false hb), ih later,
        List.length_cons, Nat.add_assoc]
  refine bytewise _ (fun b hb => eq_false_of_ne_true fun ends => ?_) x
  obtain ⟨c, hc, hb⟩ := List.mem_flatMap.mp hb
  have line : endsComment c = true := by
    simp only [isLineEnd, Bool.or_eq_true, decide_eq_true_eq] at ends
    rcases ends with rfl | rfl
    · rw [eq_of_mem_utf8EncodeChar (d := '\n') (by decide) hb]
      rfl
    · rw [eq_of_mem_utf8EncodeChar (d := '\r') (by decide) hb]
      rfl
  rw [h c hc] at line
  cases line

/-! ## Text between delimiters -/

/-- Whether the delimiters in a text lead from one depth to another, and close no more than
    is open. -/
structure Climbs (opening closing : Char) (depth : Nat) (text : List Char) (depth' : Nat) :
    Prop where
  enough : ∀ front, front <+: text → front.count closing ≤ depth + front.count opening
  total : depth' + text.count closing = depth + text.count opening

namespace Climbs

variable {opening closing : Char} {depth depth' : Nat} {text : List Char}

theorem balanced_iff : Balanced opening closing text ↔ Climbs opening closing 0 text 0 := by
  unfold Balanced
  constructor
  · rintro ⟨enough, total⟩
    exact ⟨fun front h => by rw [Nat.zero_add]; exact enough front h, by rw [total]⟩
  · rintro ⟨enough, total⟩
    exact ⟨fun front h => by have := enough front h; rwa [Nat.zero_add] at this, by omega⟩

theorem nil : Climbs opening closing depth [] depth :=
  ⟨fun front h => by rw [List.prefix_nil.mp h]; exact Nat.zero_le _, rfl⟩

theorem of_append {a b : List Char} (h : Climbs opening closing depth (a ++ b) depth') :
    ∃ depth₁, Climbs opening closing depth a depth₁ := by
  have enough (front : List Char) (hfront : front <+: a) :=
    h.enough front (hfront.trans (List.prefix_append a b))
  have total := enough a (List.prefix_refl a)
  exact ⟨depth + a.count opening - a.count closing, enough, by omega⟩

theorem cons_iff {c : Char} :
    Climbs opening closing depth (c :: text) depth' ↔
      [c].count closing ≤ depth + [c].count opening ∧
        Climbs opening closing (depth + [c].count opening - [c].count closing) text depth' := by
  have count (d : Char) (front : List Char) :
      (c :: front).count d = [c].count d + front.count d := by
    rw [← List.singleton_append, List.count_append]
  have opened := count opening text
  have closed := count closing text
  constructor
  · rintro ⟨enough, total⟩
    have first := enough [c] (List.prefix_append [c] text)
    refine ⟨first, fun front hfront => ?_, by omega⟩
    have later := enough (c :: front) (List.cons_prefix_cons.mpr ⟨rfl, hfront⟩)
    have openedFront := count opening front
    have closedFront := count closing front
    omega
  · rintro ⟨first, enough, total⟩
    refine ⟨fun front hfront => ?_, by omega⟩
    rcases List.prefix_cons_iff.mp hfront with rfl | ⟨front, rfl, hrest⟩
    · exact Nat.zero_le _
    · have later := enough front hrest
      have openedFront := count opening front
      have closedFront := count closing front
      omega

theorem cons_opening (ne : closing ≠ opening) :
    Climbs opening closing depth (opening :: text) depth' ↔
      Climbs opening closing (depth + 1) text depth' := by
  rw [cons_iff]
  simp [ne.symm]

theorem cons_closing (ne : closing ≠ opening) :
    Climbs opening closing depth (closing :: text) depth' ↔
      ∃ below, depth = below + 1 ∧ Climbs opening closing below text depth' := by
  rw [cons_iff]
  cases depth <;> simp [ne]

theorem cons_other {c : Char} (opens : c ≠ opening) (closes : c ≠ closing) :
    Climbs opening closing depth (c :: text) depth' ↔ Climbs opening closing depth text depth' := by
  rw [cons_iff]
  simp [opens, closes]

end Climbs

namespace Enclosure

theorem ascii_opening (e : Enclosure) : e.opening.toNat < 128 := by cases e <;> decide

theorem ascii_closing (e : Enclosure) : e.closing.toNat < 128 := by cases e <;> decide

theorem closing_ne_opening (e : Enclosure) : e.closing ≠ e.opening := by cases e <;> decide

theorem opening_ne_backslash (e : Enclosure) : e.opening ≠ '\\' := by cases e <;> decide

theorem closing_ne_backslash (e : Enclosure) : e.closing ≠ '\\' := by cases e <;> decide

/-- What closes some open delimiters is in a text, or the text leads to some depth. -/
theorem closes_or_climbs (e : Enclosure) (depth : Nat) (text : List Char) :
    (∃ inner rest, text = inner ++ e.closing :: rest ∧ '\\' ∉ unescaped inner ∧
        Climbs e.opening e.closing depth (unescaped inner) 0) ∨
      ∃ depth', Climbs e.opening e.closing depth (unescaped text) depth' := by
  fun_induction unescaped text generalizing depth with
  | case1 => exact .inr ⟨depth, .nil⟩
  | case2 c text ih =>
    refine (ih depth).imp_left ?_
    rintro ⟨inner, rest, rfl, escape, climbs⟩
    exact ⟨'\\' :: c :: inner, rest, rfl, escape, climbs⟩
  | case3 c text notPair ih =>
    by_cases escape : c = '\\'
    · cases text with
      | nil =>
        subst escape
        exact .inr ⟨depth, (Climbs.cons_other e.opening_ne_backslash.symm
          e.closing_ne_backslash.symm).mpr .nil⟩
      | cons d text => exact absurd rfl (notPair d text escape)
    -- the text goes on at another depth after the character
    have later {depth₁ : Nat}
        (step : ∀ {text depth'}, Climbs e.opening e.closing depth₁ text depth' →
          Climbs e.opening e.closing depth (c :: text) depth') :
        (∃ inner rest, c :: text = inner ++ e.closing :: rest ∧ '\\' ∉ unescaped inner ∧
            Climbs e.opening e.closing depth (unescaped inner) 0) ∨
          ∃ depth', Climbs e.opening e.closing depth (c :: unescaped text) depth' := by
      refine (ih depth₁).imp ?_ ?_
      · rintro ⟨inner, rest, rfl, none, climbs⟩
        refine ⟨c :: inner, rest, rfl, ?_⟩
        rw [unescaped_cons escape, List.mem_cons, not_or]
        exact ⟨⟨Ne.symm escape, none⟩, step climbs⟩
      · rintro ⟨depth', climbs⟩
        exact ⟨depth', step climbs⟩
    by_cases opens : c = e.opening
    · subst opens
      exact later (Climbs.cons_opening e.closing_ne_opening).mpr
    by_cases closes : c = e.closing
    · subst closes
      cases depth with
      | zero => exact .inl ⟨[], text, rfl, List.not_mem_nil, .nil⟩
      | succ depth =>
        exact later fun climbs =>
          (Climbs.cons_closing e.closing_ne_opening).mpr ⟨depth, rfl, climbs⟩
    · exact later (Climbs.cons_other opens closes).mpr

/-- Text that is not closed leads to some depth. -/
theorem exists_climbs (e : Enclosure) {text : List Char} (h : ¬e.Closes text) :
    ∃ depth, Climbs e.opening e.closing 0 (unescaped text) depth := by
  refine (e.closes_or_climbs 0 text).resolve_left ?_
  rintro ⟨inner, rest, rfl, escape, climbs⟩
  exact h ⟨inner, rest, rfl, escape, Climbs.balanced_iff.mpr climbs⟩

/-! ### Lengths -/

/-- The length of text that began with the opening delimiter. -/
def length (e : Enclosure) : Nat → List UInt8 → Except Fault Nat :=
  nestedLength (byte e.opening) (byte e.closing) e.unclosed

theorem length_ordinary (e : Enclosure) (depth : Nat) {front : List UInt8}
    (h : ∀ b ∈ front, b ≠ backslash ∧ b ≠ byte e.opening ∧ b ≠ byte e.closing) (x : List UInt8) :
    e.length depth (front ++ x) = (e.length depth x).map (· + front.length) := by
  induction front with
  | nil => exact (map_add_zero _).symm
  | cons b front ih =>
    obtain ⟨⟨escape, opens, closes⟩, later⟩ := List.forall_mem_cons.mp h
    rw [List.length_cons, ← map_add_map_add, ← ih later, List.cons_append]
    unfold length
    rw [nestedLength.eq_def]
    dsimp only
    rw [if_neg escape, if_neg opens, if_neg closes]

theorem length_opening (e : Enclosure) (depth : Nat) (x : List UInt8) :
    e.length depth (byte e.opening :: x) = (e.length (depth + 1) x).map (· + 1) := by
  have escape : byte e.opening ≠ backslash := by cases e <;> decide
  unfold length
  rw [nestedLength.eq_def]
  exact (if_neg escape).trans (if_pos rfl)

theorem length_closing (e : Enclosure) (depth : Nat) (x : List UInt8) :
    e.length depth (byte e.closing :: x) = match depth with
      | 0 => .ok 1
      | depth + 1 => (e.length depth x).map (· + 1) := by
  have escape : byte e.closing ≠ backslash := by cases e <;> decide
  have opens : byte e.closing ≠ byte e.opening := by cases e <;> decide
  unfold length
  rw [nestedLength.eq_def]
  exact (if_neg escape).trans ((if_neg opens).trans (if_pos rfl))

theorem length_escape (e : Enclosure) (depth : Nat) (c : Char) (x : List UInt8) :
    e.length depth (bytes ['\\', c] ++ x) =
      (e.length depth x).map (· + (bytes ['\\', c]).length) := by
  obtain ⟨b, later, hc, great⟩ := exists_utf8EncodeChar c
  have pair : bytes ['\\', c] = backslash :: b :: later := by
    rw [bytes_cons_ascii (by decide), bytes_cons, hc, bytes_nil, List.append_nil]
    rfl
  have step : e.length depth (backslash :: b :: (later ++ x)) =
      (e.length depth (later ++ x)).map (· + 2) := rfl
  rw [pair, List.cons_append, List.cons_append, step, length_ordinary e depth fun y hy => ?_,
    map_add_map_add]
  · rfl
  · exact ⟨ne_byte_of_le (great y hy) (by decide), ne_byte_of_le (great y hy) e.ascii_opening,
      ne_byte_of_le (great y hy) e.ascii_closing⟩

/-- The length of two texts is that of the first and that of the second. -/
theorem length_append (e : Enclosure) {depth depth₁ depth₂ : Nat} {a b x : List UInt8}
    (ha : e.length depth (a ++ (b ++ x)) = (e.length depth₁ (b ++ x)).map (· + a.length))
    (hb : e.length depth₁ (b ++ x) = (e.length depth₂ x).map (· + b.length)) :
    e.length depth (a ++ b ++ x) = (e.length depth₂ x).map (· + (a ++ b).length) := by
  rw [List.append_assoc, ha, hb, map_add_map_add, List.length_append, Nat.add_comm]

/-- Text is scanned from one depth to another, and then what comes after it. -/
theorem length_climbs (e : Enclosure) {depth depth' : Nat} {text : List Char}
    (escape : '\\' ∉ unescaped text)
    (h : Climbs e.opening e.closing depth (unescaped text) depth') (x : List UInt8) :
    e.length depth (bytes text ++ x) = (e.length depth' x).map (· + (bytes text).length) := by
  fun_induction unescaped text generalizing depth with
  | case1 =>
    obtain rfl : depth' = depth := h.total
    exact (map_add_zero _).symm
  | case2 c text ih =>
    exact (bytes_append ['\\', c] text) ▸ e.length_append (e.length_escape depth c _) (ih escape h)
  | case3 c text notPair ih =>
    rw [List.mem_cons, not_or] at escape
    rw [bytes_cons]
    by_cases opens : c = e.opening
    · subst opens
      rw [utf8EncodeChar_ascii e.ascii_opening]
      exact e.length_append (e.length_opening depth _)
        (ih escape.2 ((Climbs.cons_opening e.closing_ne_opening).mp h))
    by_cases closes : c = e.closing
    · subst closes
      obtain ⟨below, rfl, climbs⟩ := (Climbs.cons_closing e.closing_ne_opening).mp h
      rw [utf8EncodeChar_ascii e.ascii_closing]
      exact e.length_append (e.length_closing (below + 1) _) (ih escape.2 climbs)
    · refine e.length_append (e.length_ordinary depth (fun b hb => ⟨?_, ?_, ?_⟩) _)
        (ih escape.2 ((Climbs.cons_other opens closes).mp h))
      · rintro rfl
        exact escape.1 (eq_of_mem_utf8EncodeChar (d := '\\') (by decide) hb).symm
      · rintro rfl
        exact opens (eq_of_mem_utf8EncodeChar e.ascii_opening hb)
      · rintro rfl
        exact closes (eq_of_mem_utf8EncodeChar e.ascii_closing hb)

end Enclosure

end DviMarkup.PostScript
