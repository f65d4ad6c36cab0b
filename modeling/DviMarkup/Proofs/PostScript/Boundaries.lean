/-
  Lexemes are cut out between characters.

  Code is scanned byte by byte, and a backslash may take along only the first byte of a longer
  character, so that the scan goes on in the middle of it.  It does not stop there: every place
  where something is cut out is at an end of the code, or beside a byte that is a character.

  * `Between` holds of the places between the characters of a text, and `Beside` of those
    beside a byte that is a character; `Beside.between`: in the bytes of a text, the second are
    some of the first;
  * `beside_piece`: pieces are cut out beside such bytes;
  * `next?` is one call for a lexeme at a place, and `calls` are calls one after the other;
  * `between_of_next?`: what one call cuts out, and `lexemes_eq_calls`: lexemes are what calls
    give;
  * `lexemes_between`: lexemes are cut out between characters, and every call goes on.
-/
import DviMarkup.Proofs.PostScript.Lengths

namespace DviMarkup.PostScript

/-! ## Places between characters -/

/-- Whether a place in the bytes of a text is between two of its characters, or at an end. -/
def Between (text : List Char) (place : Nat) : Prop :=
  ∃ front back, text = front ++ back ∧ (bytes front).length = place

/-- Whether a place in bytes is at an end, or beside a byte that is a character. -/
inductive Beside (s : List UInt8) : Nat → Prop
  | start : Beside s 0
  | stop : Beside s s.length
  | before {n b} : s[n]? = some b → b.toNat < 128 → Beside s n
  | after {n b} : s[n]? = some b → b.toNat < 128 → Beside s (n + 1)

theorem Between.append (front : List Char) {text : List Char} {n : Nat} (h : Between text n) :
    Between (front ++ text) ((bytes front).length + n) := by
  obtain ⟨a, b, rfl, rfl⟩ := h
  exact ⟨front ++ a, b, (List.append_assoc ..).symm, by rw [bytes_append, List.length_append]⟩

/-- A byte that is a character has one on either side. -/
theorem between_of_ascii {text : List Char} {x y : List UInt8} {b : UInt8}
    (h : bytes text = x ++ b :: y) (ascii : b.toNat < 128) :
    Between text x.length ∧ Between text (x.length + 1) := by
  induction text generalizing x with
  | nil => exact absurd h (by simp)
  | cons c text ih =>
    -- the byte is in what comes after the first character, or in this
    have later {z : List UInt8} (hz : bytes text = z ++ b :: y)
        (hx : x = String.utf8EncodeChar c ++ z) :
        Between (c :: text) x.length ∧ Between (c :: text) (x.length + 1) := by
      have front : bytes [c] = String.utf8EncodeChar c := List.append_nil _
      rw [hx, List.length_append, ← front, Nat.add_assoc]
      exact ⟨(ih hz).1.append [c], (ih hz).2.append [c]⟩
    rw [bytes_cons] at h
    obtain ⟨z, hx, hz⟩ | ⟨z, hc, hz⟩ := List.append_eq_append_iff.mp h
    · exact later hz hx
    · cases z with
      | nil => exact later (z := []) hz.symm (by rw [hc, List.append_nil, List.append_nil])
      | cons e z =>
        obtain ⟨rfl, -⟩ := List.cons.inj hz
        have small : c.toNat < 128 := Nat.lt_of_not_le fun great =>
          Nat.not_le.mpr ascii (le_of_mem_utf8EncodeChar great (by rw [hc]; simp))
        rw [utf8EncodeChar_ascii small] at hc
        have none : x = [] := by
          have length := congrArg List.length hc
          rw [List.length_append, List.length_singleton, List.length_cons] at length
          exact List.eq_nil_of_length_eq_zero (by omega)
        subst none
        exact ⟨⟨[], c :: text, rfl, rfl⟩, [c], text, rfl, by rw [bytes_cons_ascii small]; rfl⟩

theorem Beside.between {text : List Char} {n : Nat} (h : Beside (bytes text) n) :
    Between text n := by
  have split {n : Nat} {b : UInt8} (hb : (bytes text)[n]? = some b) :
      bytes text = (bytes text).take n ++ b :: (bytes text).drop (n + 1) ∧
        ((bytes text).take n).length = n := by
    obtain ⟨hn, rfl⟩ := List.getElem?_eq_some_iff.mp hb
    rw [List.getElem_cons_drop, List.take_append_drop]
    exact ⟨rfl, List.length_take_of_le hn.le⟩
  cases h with
  | start => exact ⟨[], text, rfl, rfl⟩
  | stop => exact ⟨text, [], (List.append_nil _).symm, rfl⟩
  | before hb ascii =>
    obtain ⟨whole, length⟩ := split hb
    exact length ▸ (between_of_ascii whole ascii).1
  | after hb ascii =>
    obtain ⟨whole, length⟩ := split hb
    exact length ▸ (between_of_ascii whole ascii).2

/-- Between characters, a text can be cut in two. -/
theorem Between.isValid {code : String} {n : Nat} (h : Between code.toList n) :
    (String.Pos.Raw.mk n).IsValid code := by
  obtain ⟨front, back, hcode, rfl⟩ := h
  refine String.Pos.Raw.isValid_iff_exists_append.mpr
    ⟨.ofList front, .ofList back, ?_, String.Pos.Raw.ext ?_⟩
  · rw [← String.ofList_append, ← hcode, String.ofList_toList]
  · rw [String.byteIdx_rawEndPos, ← Utf8.length_encode, encode_eq_bytes, String.toList_ofList]

/-! ## Pieces -/

theorem ascii_of_isBlank {b : UInt8} (h : isBlank b = true) : b.toNat < 128 := by
  obtain ⟨d, hd, rfl⟩ := exists_of_isBlank h
  obtain ⟨small, -⟩ := ascii_of_isSpace hd
  rwa [toNat_byte small]

theorem ascii_of_isDelimiter {b : UInt8} (h : isDelimiter b = true) : b.toNat < 128 := by
  obtain ⟨d, hd, rfl⟩ := exists_of_isDelimiter h
  obtain ⟨small, -⟩ := ascii_of_isSpecial hd
  rwa [toNat_byte small]

theorem ascii_of_isLineEnd {b : UInt8} (h : isLineEnd b = true) : b.toNat < 128 := by
  simp only [isLineEnd, Bool.or_eq_true, decide_eq_true_eq] at h
  rcases h with rfl | rfl <;> decide

/-- Where bytes stop a text, there is an end or a byte that is a character. -/
theorem beside_of_stops {s : List UInt8} {n : Nat} (bound : n ≤ s.length)
    (h : Stops (s.drop n)) : Beside s n := by
  cases hs : s.drop n with
  | nil =>
    obtain rfl : n = s.length := Nat.le_antisymm bound (List.drop_eq_nil_iff.mp hs)
    exact .stop
  | cons b rest =>
    rw [hs] at h
    refine .before (b := b) ?_ (h.elim ascii_of_isBlank ascii_of_isDelimiter)
    rw [← List.head?_drop, hs]
    rfl

theorem exists_of_map_ok {length : Except Fault Nat} {k n : Nat}
    (h : length.map (· + k) = .ok n) : ∃ m, length = .ok m ∧ n = m + k := by
  cases length with
  | error fault => cases h
  | ok m => exact ⟨m, rfl, (Except.ok.inj h).symm⟩

/-- A raw text goes on to a byte that stops it. -/
theorem stops_drop_rawLength {s : List UInt8} {n : Nat} (h : rawLength s = .ok n) :
    Stops (s.drop n) := by
  fun_induction rawLength s generalizing n with
  | case1 =>
    cases h
    trivial
  | case2 b rest stops =>
    cases h
    exact stops
  | case3 => cases h
  | case4 c rest stops ih =>
    obtain ⟨m, hm, rfl⟩ := exists_of_map_ok h
    exact ih hm
  | case5 b rest stops escape ih =>
    obtain ⟨m, hm, rfl⟩ := exists_of_map_ok h
    exact ih hm

/-- A text between delimiters goes on to the one that closes it. -/
theorem getElem?_nestedLength {opening closing : UInt8} {unclosed : Fault} {depth : Nat}
    {s : List UInt8} {n : Nat} (h : nestedLength opening closing unclosed depth s = .ok n) :
    ∃ k, n = k + 1 ∧ s[k]? = some closing := by
  fun_induction nestedLength opening closing unclosed depth s generalizing n with
  | case1 => cases h
  | case2 => cases h
  | case3 depth c rest ih =>
    obtain ⟨m, hm, rfl⟩ := exists_of_map_ok h
    obtain ⟨k, rfl, closes⟩ := ih hm
    exact ⟨k + 2, rfl, closes⟩
  | case4 depth rest escape ih =>
    obtain ⟨m, hm, rfl⟩ := exists_of_map_ok h
    obtain ⟨k, rfl, closes⟩ := ih hm
    exact ⟨k + 1, rfl, closes⟩
  | case5 rest escape opens =>
    cases h
    exact ⟨0, rfl, rfl⟩
  | case6 rest depth escape opens ih =>
    obtain ⟨m, hm, rfl⟩ := exists_of_map_ok h
    obtain ⟨k, rfl, closes⟩ := ih hm
    exact ⟨k + 1, rfl, closes⟩
  | case7 depth b rest escape opens closes ih =>
    obtain ⟨m, hm, rfl⟩ := exists_of_map_ok h
    obtain ⟨k, rfl, closes⟩ := ih hm
    exact ⟨k + 1, rfl, closes⟩

/-- A comment goes on to the end of the code, or of a line. -/
theorem commentLength_eq (s : List UInt8) :
    commentLength s = s.length ∨
      ∃ k b, commentLength s = k + 1 ∧ s[k]? = some b ∧ isLineEnd b = true := by
  induction s with
  | nil => exact .inl rfl
  | cons b s ih =>
    rw [commentLength]
    by_cases ends : isLineEnd b = true
    · rw [if_pos ends]
      exact .inr ⟨0, b, rfl, rfl, ends⟩
    · rw [if_neg ends]
      rcases ih with whole | ⟨k, c, length, hc, ends⟩
      · exact .inl (congrArg (· + 1) whole)
      · exact .inr ⟨k + 1, c, congrArg (· + 1) length, hc, ends⟩

section Piece

variable {b : UInt8} {rest : List UInt8} {n : Nat}

theorem beside_comment (b : UInt8) (rest : List UInt8) :
    Beside (b :: rest) (1 + commentLength rest) := by
  rw [Nat.add_comm]
  rcases commentLength_eq rest with whole | ⟨k, c, length, hc, ends⟩
  · rw [whole]
    exact .stop
  · have later : (b :: rest)[k + 1]? = some c := hc
    rw [length]
    exact .after later (ascii_of_isLineEnd ends)

theorem beside_raw (h : rawLength rest = .ok n) : Beside (b :: rest) (1 + n) := by
  have bound : n ≤ rest.length := (localAt_rawLength rest n h).1
  have stops : Stops ((b :: rest).drop (n + 1)) := stops_drop_rawLength (s := rest) h
  rw [Nat.add_comm]
  exact beside_of_stops (Nat.succ_le_succ bound) stops

theorem beside_escaped {c : UInt8} (h : (rawLength rest).map (· + 1) = .ok n) :
    Beside (b :: c :: rest) (1 + n) := by
  obtain ⟨m, hm, rfl⟩ := exists_of_map_ok h
  have bound : m ≤ rest.length := (localAt_rawLength rest m hm).1
  have stops : Stops ((b :: c :: rest).drop (m + 1 + 1)) := stops_drop_rawLength (s := rest) hm
  rw [Nat.add_comm]
  exact beside_of_stops (Nat.succ_le_succ (Nat.succ_le_succ bound)) stops

/-- What is cut out for a lexeme, if the piece has `n` bytes after the first: some of the piece,
    beside bytes that are characters. -/
structure Cut (b : UInt8) (rest : List UInt8) (n : Nat) (l : Lexeme) : Prop where
  start_le_stop : l.start ≤ l.stop
  stop_le : l.stop ≤ 1 + n
  start : Beside (b :: rest) l.start
  stop : Beside (b :: rest) l.stop

theorem cut_nested {opening closing : UInt8} {unclosed : Fault} {kind : Kind}
    (small : b.toNat < 128) (closes : closing.toNat < 128)
    (h : nestedLength opening closing unclosed 0 rest = .ok n) :
    Beside (b :: rest) (1 + n) ∧ Cut b rest n ⟨kind, 1, n⟩ := by
  obtain ⟨k, rfl, hk⟩ := getElem?_nestedLength h
  have closing : (b :: rest)[k + 1]? = some closing := hk
  rw [Nat.add_comm]
  exact ⟨.after closing closes,
    { start_le_stop := Nat.le_add_left 1 k
      stop_le := Nat.le_add_left _ 1
      start := .after (List.getElem?_cons_zero ..) small
      stop := .before closing closes }⟩

theorem cut_bracket {kind : Kind} (small : b.toNat < 128) :
    Beside (b :: rest) (1 + 0) ∧ Cut b rest 0 ⟨kind, 0, 1⟩ := by
  have ends : Beside (b :: rest) 1 := .after (List.getElem?_cons_zero ..) small
  exact ⟨ends,
    { start_le_stop := Nat.zero_le 1
      stop_le := Nat.le_refl 1
      start := .start
      stop := ends }⟩

/-- **Pieces and lexemes are cut out beside bytes that are characters.** -/
theorem beside_piece (h : restLength b rest = .ok n) :
    Beside (b :: rest) (1 + n) ∧ ∀ l, lexeme? b n = some l → Cut b rest n l := by
  have first : (b :: rest)[0]? = some b := rfl
  unfold restLength at h
  unfold lexeme?
  -- the same questions about `b`, in the order in which a scan asks them
  by_cases blank : isBlank b = true
  · simp only [if_pos blank] at h ⊢
    cases h
    refine ⟨.after first (ascii_of_isBlank blank), ?_⟩
    rintro _ ⟨⟩
  simp only [if_neg blank] at h ⊢
  by_cases comment : b = byte '%'
  · simp only [if_pos comment] at h ⊢
    cases h
    refine ⟨beside_comment b rest, ?_⟩
    rintro _ ⟨⟩
  simp only [if_neg comment] at h ⊢
  by_cases brace : b = byte '\x7b'
  · simp only [if_pos brace, Option.some.injEq, forall_eq'] at h ⊢
    exact cut_nested (brace ▸ by decide) (by decide) h
  simp only [if_neg brace] at h ⊢
  by_cases paren : b = byte '('
  · simp only [if_pos paren, Option.some.injEq, forall_eq'] at h ⊢
    exact cut_nested (paren ▸ by decide) (by decide) h
  simp only [if_neg paren] at h ⊢
  by_cases opens : b = byte '['
  · simp only [if_pos opens, if_pos (Or.inl opens : b = byte '[' ∨ b = byte ']'),
      Option.some.injEq, forall_eq'] at h ⊢
    cases h
    exact cut_bracket (opens ▸ by decide)
  by_cases closes : b = byte ']'
  · simp only [if_neg opens, if_pos closes, if_pos (Or.inr closes : b = byte '[' ∨ b = byte ']'),
      Option.some.injEq, forall_eq'] at h ⊢
    cases h
    exact cut_bracket (closes ▸ by decide)
  simp only [if_neg opens, if_neg closes, if_neg (not_or.mpr ⟨opens, closes⟩)] at h ⊢
  have ends : Beside (b :: rest) (1 + n) := by
    by_cases escape : b = backslash
    · simp only [if_pos escape] at h
      cases rest with
      | nil => cases h
      | cons c rest => exact beside_escaped h
    · simp only [if_neg escape] at h
      exact beside_raw h
  refine ⟨ends, ?_⟩
  by_cases slash : b = byte '/'
  · simp only [if_pos slash, Option.some.injEq, forall_eq']
    exact ⟨Nat.le_add_right 1 n, Nat.le_refl _, .after first (slash ▸ by decide), ends⟩
  · simp only [if_neg slash, Option.some.injEq, forall_eq']
    exact ⟨Nat.zero_le _, Nat.le_refl _, .start, ends⟩

end Piece

/-! ## Calls -/

/-- One call for a lexeme at a place: what it gives, if anything, and the place after that.
    A fault is given once, and the place after it is the end. -/
def next? (code : List UInt8) (place : Nat) : Option (Except Fault Lexeme × Nat) :=
  match _h : code.drop place with
  | [] => none
  | b :: rest =>
    match restLength b rest with
    | .error fault => some (.error fault, code.length)
    | .ok n =>
      match lexeme? b n with
      | some l => some (.ok (l.shift place), place + (1 + n))
      | none => next? code (place + (1 + n))
termination_by code.length - place
decreasing_by
  have length := congrArg List.length _h
  rw [List.length_drop, List.length_cons] at length
  omega

theorem Beside.le {s : List UInt8} {n : Nat} (h : Beside s n) : n ≤ s.length := by
  cases h with
  | start => exact Nat.zero_le _
  | stop => exact Nat.le_refl _
  | before hb => exact (List.getElem?_eq_some_iff.mp hb).1.le
  | after hb => exact (List.getElem?_eq_some_iff.mp hb).1

section Calls

variable {code : List UInt8} {place later : Nat} {found : Except Fault Lexeme}

/-- **A call that gives something goes on**, at most to the end. -/
theorem next?_bounds (h : next? code place = some (found, later)) :
    place < later ∧ later ≤ code.length := by
  fun_induction next? code place with
  | case1 => cases h
  | case2 place b rest heq fault hn =>
    cases h
    have length := congrArg List.length heq
    rw [List.length_drop, List.length_cons] at length
    exact ⟨by omega, Nat.le_refl _⟩
  | case3 place b rest heq n hn l hl =>
    cases h
    have bound := (beside_piece hn).1.le
    rw [← heq, List.length_drop] at bound
    exact ⟨by omega, by omega⟩
  | case4 place b rest heq n hn hl ih =>
    obtain ⟨lt, le⟩ := ih h
    exact ⟨by omega, le⟩

/-- Calls one after the other, until one gives nothing. -/
def calls (code : List UInt8) (place : Nat) : List (Except Fault Lexeme) :=
  match _h : next? code place with
  | none => []
  | some (found, later) => found :: calls code later
termination_by code.length - place
decreasing_by
  have := next?_bounds _h
  omega

/-- What comes after a piece. -/
theorem drop_piece {b : UInt8} {rest : List UInt8} (h : code.drop place = b :: rest) (n : Nat) :
    code.drop (place + (1 + n)) = rest.drop n := by
  rw [← List.drop_drop, h, Nat.add_comm 1, List.drop_succ_cons]

/-- What is scanned from a place is what a call gives, and what is scanned after that. -/
theorem scan_drop (code : List UInt8) (place : Nat) :
    scan place (code.drop place) =
      match next? code place with
      | none => []
      | some (found, later) => found :: scan later (code.drop later) := by
  fun_induction next? code place with
  | case1 place heq => rw [heq, scan]
  | case2 place b rest heq fault hn =>
    rw [heq, scan_cons, hn]
    dsimp only
    rw [List.drop_length, scan]
  | case3 place b rest heq n hn l hl =>
    rw [heq, scan_cons, hn]
    dsimp only
    rw [hl, drop_piece heq]
    rfl
  | case4 place b rest heq n hn hl ih =>
    rw [heq, scan_cons, hn, ← ih]
    dsimp only
    rw [hl, drop_piece heq]
    rfl

/-- **Lexemes are what calls give one after the other.** -/
theorem lexemes_eq_calls (code : List UInt8) : lexemes code = calls code 0 := by
  have from_ (place : Nat) : scan place (code.drop place) = calls code place := by
    fun_induction calls code place with
    | case1 place h => rw [scan_drop, h]
    | case2 place found later h ih =>
      rw [scan_drop, h]
      exact congrArg _ ih
  exact from_ 0

end Calls

/-! ## Cuts -/

section Cuts

variable {text : List Char} {place later : Nat}

theorem Between.exists_drop (h : Between text place) :
    ∃ front back, text = front ++ back ∧ (bytes front).length = place ∧
      (bytes text).drop place = bytes back := by
  obtain ⟨front, back, rfl, rfl⟩ := h
  exact ⟨front, back, rfl, rfl, by rw [bytes_append, List.drop_left]⟩

/-- Between characters, a text goes on with places between characters. -/
theorem Between.add (h : Between text place) {s : List UInt8} {n : Nat}
    (hs : (bytes text).drop place = s) (beside : Beside s n) : Between text (place + n) := by
  obtain ⟨front, back, rfl, rfl, hback⟩ := h.exists_drop
  rw [← hs, hback] at beside
  exact beside.between.append front

/-- Whether a lexeme is cut out between characters, within some places. -/
structure CutOut (text : List Char) (place later : Nat) (l : Lexeme) : Prop where
  place_le : place ≤ l.start
  start_le_stop : l.start ≤ l.stop
  stop_le : l.stop ≤ later
  start : Between text l.start
  stop : Between text l.stop

/-- **What one call does**: it goes on from a place between characters to another, and cuts a
    lexeme out between characters. -/
theorem between_of_next? {found : Except Fault Lexeme} (start : Between text place)
    (h : next? (bytes text) place = some (found, later)) :
    Between text later ∧ ∀ l, found = .ok l → CutOut text place later l := by
  fun_induction next? (bytes text) place with
  | case1 => cases h
  | case2 place b rest heq fault hn =>
    cases h
    exact ⟨⟨text, [], (List.append_nil text).symm, rfl⟩, nofun⟩
  | case3 place b rest heq n hn l hl =>
    cases h
    obtain ⟨ends, cut⟩ := beside_piece hn
    refine ⟨start.add heq ends, ?_⟩
    rintro _ ⟨⟩
    have cut := cut l hl
    exact
      { place_le := Nat.le_add_right _ _
        start_le_stop := Nat.add_le_add_left cut.start_le_stop place
        stop_le := Nat.add_le_add_left cut.stop_le place
        start := start.add heq cut.start
        stop := start.add heq cut.stop }
  | case4 place b rest heq n hn hl ih =>
    obtain ⟨ends, cut⟩ := ih (start.add heq (beside_piece hn).1) h
    refine ⟨ends, fun l hl => ?_⟩
    have cut := cut l hl
    exact { cut with place_le := (Nat.le_add_right _ _).trans cut.place_le }

/-- What calls from a place between characters do. -/
theorem cutOut_of_mem_calls {l : Lexeme} (start : Between text place)
    (h : .ok l ∈ calls (bytes text) place) : CutOut text place (bytes text).length l := by
  fun_induction calls (bytes text) place with
  | case1 => cases h
  | case2 place found later hnext ih =>
    obtain ⟨ends, cut⟩ := between_of_next? start hnext
    obtain ⟨lt, le⟩ := next?_bounds hnext
    rcases List.mem_cons.mp h with rfl | h
    · have cut := cut l rfl
      exact { cut with stop_le := cut.stop_le.trans le }
    · have cut := ih ends h
      exact { cut with place_le := lt.le.trans cut.place_le }

/-- What is cut out between characters are characters. -/
theorem CutOut.exists_characters {l : Lexeme} (h : CutOut text place later l) :
    ∃ before inner after, text = before ++ inner ++ after ∧ (bytes before).length = l.start ∧
      (bytes (before ++ inner)).length = l.stop := by
  obtain ⟨before, rest, htext, hstart⟩ := h.start
  obtain ⟨front, after, htext', hstop⟩ := h.stop
  obtain ⟨inner, rfl, -⟩ | ⟨inner, rfl, -⟩ := List.append_eq_append_iff.mp (htext ▸ htext')
  · exact ⟨before, inner, after, htext', hstart, hstop⟩
  · have le := h.start_le_stop
    rw [← hstart, ← hstop, bytes_append, List.length_append] at le
    refine ⟨_, [], rest, by rw [List.append_nil]; exact htext, hstart, ?_⟩
    rw [List.append_nil, ← hstop, bytes_append, List.length_append]
    omega

/-- A lexeme that is cut out between characters means what these characters do. -/
theorem ofLexeme_of_characters {before inner after : List Char} {l : Lexeme}
    (start : (bytes before).length = l.start) (stop : (bytes (before ++ inner)).length = l.stop) :
    Token.ofLexeme (bytes (before ++ inner ++ after)) l =
      Token.ofText (String.ofList inner) l.kind := by
  have length : l.stop - l.start = (bytes inner).length := by
    rw [← start, ← stop, bytes_append, List.length_append, Nat.add_sub_cancel_left]
  rw [Token.ofLexeme, Lexeme.bytes, length, ← start, List.append_assoc, bytes_append,
    List.drop_left, bytes_append, List.take_left, decode_bytes]

end Cuts

/-- **Lexemes are cut out between characters.**  The places where a lexeme starts and stops are
    in order and between characters of the code, so that the lexeme means what the characters
    between them do.  Lexemes come from calls one after the other, and every call that gives
    something goes on. -/
theorem lexemes_between (code : String) :
    (∀ l, .ok l ∈ lexemes (Utf8.encode code) →
      l.start ≤ l.stop ∧ (String.Pos.Raw.mk l.start).IsValid code ∧
        (String.Pos.Raw.mk l.stop).IsValid code ∧
        ∃ before inner after : String, code = before ++ inner ++ after ∧
          before.utf8ByteSize = l.start ∧ (before ++ inner).utf8ByteSize = l.stop ∧
          Token.ofLexeme (Utf8.encode code) l = Token.ofText inner l.kind) ∧
      lexemes (Utf8.encode code) = calls (Utf8.encode code) 0 ∧
      ∀ place found later, next? (Utf8.encode code) place = some (found, later) →
        place < later ∧ later ≤ code.utf8ByteSize := by
  refine ⟨fun l hl => ?_, lexemes_eq_calls _, fun place found later h => ?_⟩
  · rw [lexemes_eq_calls, encode_eq_bytes] at hl
    have beginning : Between code.toList 0 := ⟨[], code.toList, rfl, rfl⟩
    have cut := cutOut_of_mem_calls beginning hl
    refine ⟨cut.start_le_stop, cut.start.isValid, cut.stop.isValid, ?_⟩
    obtain ⟨before, inner, after, hcode, start, stop⟩ := cut.exists_characters
    have size (s : List Char) : (String.ofList s).utf8ByteSize = (bytes s).length := by
      rw [← Utf8.length_encode, encode_eq_bytes, String.toList_ofList]
    refine ⟨.ofList before, .ofList inner, .ofList after, ?_, ?_, ?_, ?_⟩
    · rw [← String.ofList_append, ← String.ofList_append, ← hcode, String.ofList_toList]
    · rw [size, start]
    · rw [← String.ofList_append, size, stop]
    · rw [encode_eq_bytes, hcode]
      exact ofLexeme_of_characters start stop
  · rw [← Utf8.length_encode]
    exact next?_bounds h

/-- A character of two bytes after a backslash, in a text between braces and in a name: neither
    is cut. -/
theorem lexemes_between_escaped :
    let code := "\x7b\\é\x7d/n\\éx"
    Except.ok ⟨.procedure, 1, 4⟩ ∈ lexemes (Utf8.encode code) ∧
      Except.ok ⟨.name, 6, 11⟩ ∈ lexemes (Utf8.encode code) ∧
      (String.Pos.Raw.mk 4).IsValid code ∧ (String.Pos.Raw.mk 6).IsValid code ∧
      next? (Utf8.encode code) 0 = some (.ok ⟨.procedure, 1, 4⟩, 5) ∧ 0 < 5 := by
  intro code
  have procedure : Except.ok ⟨.procedure, 1, 4⟩ ∈ lexemes (Utf8.encode code) := by
    decide +kernel
  have name : Except.ok ⟨.name, 6, 11⟩ ∈ lexemes (Utf8.encode code) := by
    decide +kernel
  have call : next? (Utf8.encode code) 0 = some (.ok ⟨.procedure, 1, 4⟩, 5) := by
    decide +kernel
  obtain ⟨cut, -, goes⟩ := lexemes_between code
  exact ⟨procedure, name, (cut _ procedure).2.2.1, (cut _ name).2.1, call, (goes _ _ _ call).1⟩

end DviMarkup.PostScript
