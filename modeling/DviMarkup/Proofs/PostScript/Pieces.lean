/-
  Code in pieces.

  Code is scanned piece by piece: a piece is a blank, a comment or a lexeme.  Where a piece
  stops does not depend on the code after it, as long as that still stops it.  Hence the
  tokens of code are those of its pieces.

  * `LocalAt` is about a length that is a matter only of the bytes that it counts, and
    `localAt_restLength`: the lengths of pieces are, except for a comment without an end;
  * `scan_cons`: code is scanned by its first piece and then what comes after it;
  * `tokensOf` are the tokens of code, and `tokensOf_cons` are those of its first piece and
    of what comes after it, wherever this stands;
  * `Lexes` and `EndsInComment` are whether code can be scanned to its end, and whether it
    then is within a comment; `lexes_cons` and `endsInComment_cons` tell both by its pieces;
  * `tokensOf_append`: code that goes on after that, not within a comment, with something
    that stops the last piece has the tokens of both.
-/
import Mathlib.Data.List.Infix
import DviMarkup.PostScript.Lexeme

namespace DviMarkup.PostScript

/-! ## Lengths -/

/-- Whether bytes are at an end or begin with one that stops a text. -/
def Stops : List UInt8 → Prop
  | [] => True
  | b :: _ => isBlank b ∨ isDelimiter b

/-- Whether bytes may stand in place of others as the rest of code: they are some of them,
    or go on after them with bytes that stop a text. -/
def StandsFor (bytes rest : List UInt8) : Prop :=
  bytes <+: rest ∨ ∃ more, Stops more ∧ bytes = rest ++ more

theorem StandsFor.stops {x rest : List UInt8} (h : StandsFor x rest) (stops : Stops rest) :
    Stops x := by
  obtain ⟨y, rfl⟩ | ⟨y, hy, rfl⟩ := h
  · cases x with
    | nil => trivial
    | cons b x => exact stops
  · cases rest with
    | nil => exact hy
    | cons b rest => exact stops

/-- Whether the length of something at the front of `s` is a matter only of the bytes that it
    counts: with other bytes in place of the rest it is the same. -/
def LocalAt (length : List UInt8 → Except Fault Nat) (s : List UInt8) : Prop :=
  ∀ n, length s = .ok n →
    n ≤ s.length ∧ ∀ x, StandsFor x (s.drop n) → length (s.take n ++ x) = .ok n

namespace LocalAt

variable {length length' : List UInt8 → Except Fault Nat} {s : List UInt8}

theorem of_error {fault : Fault} (h : length s = .error fault) : LocalAt length s := by
  intro n hn
  cases h.symm.trans hn

theorem zero (h : ∀ x, StandsFor x s → length x = .ok 0) : LocalAt length s := by
  intro n hn
  cases (h s (.inl (List.prefix_refl s))).symm.trans hn
  exact ⟨Nat.zero_le _, h⟩

/-- The length may count some bytes at the front first. -/
theorem append (front : List UInt8)
    (step : ∀ x, length (front ++ x) = (length' x).map (· + front.length))
    (h : LocalAt length' s) : LocalAt length (front ++ s) := by
  intro n hn
  rw [step] at hn
  cases hs : length' s with
  | error fault =>
    rw [hs] at hn
    cases hn
  | ok m =>
    rw [hs] at hn
    obtain rfl : m + front.length = n := Except.ok.inj hn
    obtain ⟨bound, same⟩ := h m hs
    rw [Nat.add_comm m]
    refine ⟨?_, fun x hx => ?_⟩
    · rw [List.length_append]
      exact Nat.add_le_add_left bound _
    · rw [List.drop_length_add_append] at hx
      rw [List.take_length_add_append, List.append_assoc, step, same x hx, Nat.add_comm]
      rfl

/-- The length stays the same if the bytes go on with ones that stop a text. -/
theorem append_stops {n : Nat} (h : LocalAt length s) (hn : length s = .ok n) {more : List UInt8}
    (stops : Stops more) : length (s ++ more) = .ok n := by
  have same := (h n hn).2 (s.drop n ++ more) (.inr ⟨more, stops, rfl⟩)
  rwa [← List.append_assoc, List.take_append_drop] at same

end LocalAt

theorem rawLength_of_stops {x : List UInt8} (h : Stops x) : rawLength x = .ok 0 := by
  cases x with
  | nil => rfl
  | cons b x =>
    rw [rawLength.eq_def]
    exact if_pos h

theorem localAt_rawLength (s : List UInt8) : LocalAt rawLength s := by
  fun_induction rawLength s with
  | case1 => exact .zero fun x hx => rawLength_of_stops (hx.stops trivial)
  | case2 b rest stops => exact .zero fun x hx => rawLength_of_stops (hx.stops stops)
  | case3 stops => exact .of_error rfl
  | case4 c rest stops ih => exact ih.append [backslash, c] fun x => rfl
  | case5 b rest stops escape ih =>
    refine ih.append [b] fun x => ?_
    rw [List.singleton_append, rawLength.eq_def]
    exact (if_neg stops).trans (if_neg escape)

theorem localAt_nestedLength (opening closing : UInt8) (unclosed : Fault) (depth : Nat)
    (s : List UInt8) : LocalAt (nestedLength opening closing unclosed depth) s := by
  fun_induction nestedLength opening closing unclosed depth s with
  | case1 => exact .of_error rfl
  | case2 => exact .of_error rfl
  | case3 depth c rest ih => exact ih.append [backslash, c] fun x => rfl
  | case4 depth rest escape ih =>
    refine ih.append [opening] fun x => ?_
    rw [List.singleton_append, nestedLength.eq_def]
    exact (if_neg escape).trans (if_pos rfl)
  | case5 rest escape opens =>
    refine (LocalAt.zero fun _ _ => rfl : LocalAt (fun _ => .ok 0) _).append [closing] fun x => ?_
    rw [List.singleton_append, nestedLength.eq_def]
    exact (if_neg escape).trans ((if_neg opens).trans (if_pos rfl))
  | case6 rest depth escape opens ih =>
    refine ih.append [closing] fun x => ?_
    rw [List.singleton_append, nestedLength.eq_def]
    exact (if_neg escape).trans ((if_neg opens).trans (if_pos rfl))
  | case7 depth b rest escape opens closes ih =>
    refine ih.append [b] fun x => ?_
    rw [List.singleton_append, nestedLength.eq_def]
    exact (if_neg escape).trans ((if_neg opens).trans (if_neg closes))

/-- The length of a comment is such a matter if there is something to end it. -/
theorem localAt_commentLength {s : List UInt8} (h : s.any isLineEnd = true) :
    LocalAt (fun s => .ok (commentLength s)) s := by
  induction s with
  | nil => cases h
  | cons b s ih =>
    by_cases ends : isLineEnd b = true
    · refine (LocalAt.zero fun _ _ => rfl : LocalAt (fun _ => .ok 0) _).append [b] fun x => ?_
      rw [List.singleton_append, commentLength, if_pos ends]
      rfl
    · rw [List.any_cons, Bool.or_eq_true] at h
      refine (ih (h.resolve_left ends)).append [b] fun x => ?_
      rw [List.singleton_append, commentLength, if_neg ends]
      rfl

/-! ## Pieces -/

/-- How many bytes after `b` belong to the piece that it begins. -/
def restLength (b : UInt8) (rest : List UInt8) : Except Fault Nat :=
  if isBlank b then .ok 0
  else if b = byte '%' then .ok (commentLength rest)
  else if b = byte '\x7b' then nestedLength b (byte '\x7d') .unterminatedProcedure 0 rest
  else if b = byte '(' then nestedLength b (byte ')') .unterminatedString 0 rest
  else if b = byte '[' ∨ b = byte ']' then .ok 0
  else if b = backslash then
    match rest with
    | [] => .error .trailingEscape
    | _ :: rest' => (rawLength rest').map (· + 1)
  else rawLength rest

/-- The length of the first piece is a matter of its bytes, unless it is a comment without
    an end. -/
theorem localAt_restLength {b : UInt8} {rest : List UInt8}
    (ends : b = byte '%' → rest.any isLineEnd = true) : LocalAt (restLength b) rest := by
  unfold restLength
  by_cases blank : isBlank b = true
  · simp only [if_pos blank]
    exact .zero fun _ _ => rfl
  simp only [if_neg blank]
  by_cases comment : b = byte '%'
  · simp only [if_pos comment]
    exact localAt_commentLength (ends comment)
  simp only [if_neg comment]
  by_cases brace : b = byte '\x7b'
  · simp only [if_pos brace]
    exact localAt_nestedLength _ _ _ _ _
  simp only [if_neg brace]
  by_cases paren : b = byte '('
  · simp only [if_pos paren]
    exact localAt_nestedLength _ _ _ _ _
  simp only [if_neg paren]
  by_cases bracket : b = byte '[' ∨ b = byte ']'
  · simp only [if_pos bracket]
    exact .zero fun _ _ => rfl
  simp only [if_neg bracket]
  by_cases escape : b = backslash
  · simp only [if_pos escape]
    cases rest with
    | nil => exact .of_error rfl
    | cons c rest => exact (localAt_rawLength rest).append [c] fun x => rfl
  · simp only [if_neg escape]
    exact localAt_rawLength rest

/-- The lexeme that `b` begins, if `n` bytes after it belong to it; blanks and comments are
    none. -/
def lexeme? (b : UInt8) (n : Nat) : Option Lexeme :=
  if isBlank b then none
  else if b = byte '%' then none
  else if b = byte '\x7b' then some ⟨.procedure, 1, n⟩
  else if b = byte '(' then some ⟨.string, 1, n⟩
  else if b = byte '[' then some ⟨.arrayStart, 0, 1⟩
  else if b = byte ']' then some ⟨.arrayEnd, 0, 1⟩
  else if b = byte '/' then some ⟨.name, 1, 1 + n⟩
  else some ⟨.raw, 0, 1 + n⟩

/-- A lexeme that is `k` bytes further on. -/
def Lexeme.shift (k : Nat) (l : Lexeme) : Lexeme :=
  ⟨l.kind, k + l.start, k + l.stop⟩

/-- Code is scanned by its first piece and then what comes after it. -/
theorem scan_cons (pos : Nat) (b : UInt8) (rest : List UInt8) :
    scan pos (b :: rest) = match restLength b rest with
      | .error fault => [.error fault]
      | .ok n => (lexeme? b n).toList.map (fun l => .ok (l.shift pos)) ++
          scan (pos + (1 + n)) (rest.drop n) := by
  rw [scan.eq_def]
  unfold restLength lexeme?
  dsimp only
  -- the same questions about `b`, in the order in which a scan asks them
  by_cases blank : isBlank b = true
  · simp only [if_pos blank]
    rfl
  simp only [if_neg blank]
  by_cases comment : b = byte '%'
  · simp only [if_pos comment, Nat.add_assoc]
    rfl
  simp only [if_neg comment]
  by_cases brace : b = byte '\x7b'
  · simp only [if_pos brace, Nat.add_assoc]
    cases nestedLength b (byte '\x7d') .unterminatedProcedure 0 rest <;> rfl
  simp only [if_neg brace]
  by_cases paren : b = byte '('
  · simp only [if_pos paren, Nat.add_assoc]
    cases nestedLength b (byte ')') .unterminatedString 0 rest <;> rfl
  simp only [if_neg paren]
  by_cases opens : b = byte '['
  · simp only [if_pos opens, if_pos (Or.inl opens : b = byte '[' ∨ b = byte ']')]
    rfl
  simp only [if_neg opens]
  by_cases closes : b = byte ']'
  · simp only [if_pos closes, if_pos (Or.inr closes : b = byte '[' ∨ b = byte ']')]
    rfl
  simp only [if_neg closes, if_neg (not_or.mpr ⟨opens, closes⟩)]
  by_cases slash : b = byte '/'
  · have escape : b ≠ backslash := by
      rw [slash]
      decide
    simp only [if_pos slash, if_neg escape, Nat.add_assoc]
    cases rawLength rest <;> rfl
  simp only [if_neg slash]
  by_cases escape : b = backslash
  · simp only [if_pos escape]
    cases rest with
    | nil => rfl
    | cons c rest =>
      dsimp only
      cases rawLength rest with
      | error fault => rfl
      | ok n =>
        have next : pos + 2 + n = pos + (1 + (n + 1)) := by omega
        dsimp only [Except.map]
        rw [next]
        rfl
  · simp only [if_neg escape, Nat.add_assoc]
    cases rawLength rest <;> rfl

/-- Induction over the pieces of code, of whatever length these are. -/
@[elab_as_elim]
theorem pieces_induction {motive : List UInt8 → Prop} (code : List UInt8) (nil : motive [])
    (cons : ∀ b rest, (∀ n, motive (rest.drop n)) → motive (b :: rest)) : motive code := by
  induction h : code.length using Nat.strongRecOn generalizing code with
  | ind k ih =>
    cases code with
    | nil => exact nil
    | cons b rest =>
      refine cons b rest fun n => ih _ ?_ _ rfl
      rw [← h, List.length_drop, List.length_cons]
      omega

/-- Lexemes are further on if the code is. -/
theorem scan_add (k pos : Nat) (code : List UInt8) :
    scan (k + pos) code = (scan pos code).map fun l => l.map (Lexeme.shift k) := by
  induction code using pieces_induction generalizing pos with
  | nil => rw [scan, scan, List.map_nil]
  | cons b rest ih =>
    rw [scan_cons, scan_cons]
    cases restLength b rest with
    | error fault => rfl
    | ok n =>
      dsimp only
      rw [Nat.add_assoc, ih, List.map_append, List.map_map]
      refine congrArg (· ++ _) (List.map_congr_left fun l _ => ?_)
      simp only [Function.comp_apply, Except.map, Lexeme.shift, Nat.add_assoc]

/-! ## Tokens -/

/-- The tokens of code, up to the first fault. -/
def tokensOf (code : List UInt8) : List (Except Fault Token) :=
  (lexemes code).map fun l => l.map (Token.ofLexeme code)

theorem tokens_eq (code : String) : tokens code = tokensOf (Utf8.encode code) := rfl

theorem tokensOf_nil : tokensOf [] = [] := by
  rw [tokensOf, lexemes, scan, List.map_nil]

/-- A lexeme that is further on in code means the same without what is before it. -/
theorem Token.ofLexeme_shift (k : Nat) (l : Lexeme) (code : List UInt8) :
    Token.ofLexeme code (l.shift k) = Token.ofLexeme (code.drop k) l := by
  have length : k + l.stop - (k + l.start) = l.stop - l.start := by omega
  unfold Token.ofLexeme Lexeme.bytes Lexeme.shift
  rw [length, List.drop_drop]

/-- A lexeme means the same without what is after it. -/
theorem Token.ofLexeme_take {k : Nat} {l : Lexeme} (h : l.stop ≤ k) (code : List UInt8) :
    Token.ofLexeme (code.take k) l = Token.ofLexeme code l := by
  have length : min (l.stop - l.start) (k - l.start) = l.stop - l.start := by omega
  unfold Token.ofLexeme Lexeme.bytes
  rw [List.drop_take, List.take_take, length]

theorem stop_le_of_lexeme? {b : UInt8} {n : Nat} {l : Lexeme} (h : lexeme? b n = some l) :
    l.stop ≤ n + 1 := by
  unfold lexeme? at h
  split_ifs at h <;> cases h <;> dsimp only <;> omega

/-- **The tokens of code are that of its first piece, if this is a lexeme, and those of what
    comes after it.** -/
theorem tokensOf_cons (b : UInt8) (rest : List UInt8) :
    tokensOf (b :: rest) = match restLength b rest with
      | .error fault => [.error fault]
      | .ok n => (lexeme? b n).toList.map (fun l => .ok (Token.ofLexeme (b :: rest.take n) l)) ++
          tokensOf (rest.drop n) := by
  unfold tokensOf lexemes
  rw [scan_cons]
  cases restLength b rest with
  | error fault => rfl
  | ok n =>
    dsimp only
    rw [Nat.zero_add, ← Nat.add_zero (1 + n), scan_add, List.map_append, List.map_map, List.map_map]
    refine congr (congrArg _ (List.map_congr_left fun l hl => ?_)) (List.map_congr_left fun l _ => ?_)
    · have bound := stop_le_of_lexeme? (Option.mem_toList.mp hl)
      rw [← List.take_succ_cons, Token.ofLexeme_take bound]
      exact congrArg Except.ok (Token.ofLexeme_shift 0 l _)
    · cases l with
      | error fault => rfl
      | ok l =>
        rw [← List.drop_succ_cons (a := b), Nat.add_comm 1]
        exact congrArg Except.ok (Token.ofLexeme_shift (n + 1) l _)

/-! ## Code that can be scanned to its end -/

/-- Whether code can be scanned to its end. -/
def Lexes (code : List UInt8) : Prop :=
  ∀ l ∈ lexemes code, l.isOk = true

instance (code : List UInt8) : Decidable (Lexes code) :=
  inferInstanceAs (Decidable (∀ l ∈ lexemes code, l.isOk = true))

/-- Whether code ends within a comment: at some place where all before it can be scanned
    there is a percent sign, and no end of a line after it. -/
def EndsInComment (code : List UInt8) : Prop :=
  ∃ before comment, code = before ++ byte '%' :: comment ∧ Lexes before ∧
    comment.any isLineEnd = false

theorem endsInComment_iff (code : List UInt8) :
    EndsInComment code ↔ ∃ n < code.length, code[n]? = some (byte '%') ∧ Lexes (code.take n) ∧
      (code.drop (n + 1)).any isLineEnd = false := by
  constructor
  · rintro ⟨before, comment, rfl, lexes, unended⟩
    refine ⟨before.length, by simp, by simp, ?_, ?_⟩
    · rwa [List.take_left]
    · rwa [← List.drop_drop, List.drop_left]
  · rintro ⟨n, hn, percent, lexes, unended⟩
    refine ⟨code.take n, code.drop (n + 1), ?_, lexes, unended⟩
    obtain ⟨_, h⟩ := List.getElem?_eq_some_iff.mp percent
    rw [← h, List.getElem_cons_drop, List.take_append_drop]

instance (code : List UInt8) : Decidable (EndsInComment code) :=
  decidable_of_iff' _ (endsInComment_iff code)

theorem lexes_iff (code : List UInt8) : Lexes code ↔ ∀ t ∈ tokensOf code, t.isOk = true := by
  rw [tokensOf, List.forall_mem_map]
  refine forall₂_congr fun l _ => ?_
  cases l <;> rfl

theorem lexes_nil : Lexes [] := by
  unfold Lexes lexemes
  rw [scan]
  exact List.forall_mem_nil _

theorem lexes_cons {b : UInt8} {rest : List UInt8} :
    Lexes (b :: rest) ↔ ∃ n, restLength b rest = .ok n ∧ Lexes (rest.drop n) := by
  rw [lexes_iff, tokensOf_cons]
  constructor
  · intro h
    cases hn : restLength b rest with
    | error fault =>
      rw [hn] at h
      cases h _ (List.mem_singleton_self _)
    | ok n =>
      rw [hn] at h
      exact ⟨n, rfl, (lexes_iff _).mpr fun t ht => h t (List.mem_append_right _ ht)⟩
  · rintro ⟨n, hn, h⟩ t ht
    rw [hn] at ht
    rcases List.mem_append.mp ht with ht | ht
    · obtain ⟨l, -, rfl⟩ := List.mem_map.mp ht
      rfl
    · exact (lexes_iff _).mp h t ht

/-- Code ends within a comment if its first piece is a comment without an end, or what comes
    after this piece ends within one. -/
theorem endsInComment_cons {b : UInt8} {rest : List UInt8} :
    EndsInComment (b :: rest) ↔ (b = byte '%' ∧ rest.any isLineEnd = false) ∨
      ∃ n, restLength b rest = .ok n ∧ EndsInComment (rest.drop n) := by
  constructor
  · rintro ⟨before, comment, split, lexes, unended⟩
    cases before with
    | nil =>
      obtain ⟨rfl, rfl⟩ := List.cons.inj split
      exact .inl ⟨rfl, unended⟩
    | cons c before =>
      rw [List.cons_append] at split
      obtain ⟨rfl, rfl⟩ := List.cons.inj split
      by_cases ends : b = byte '%' → before.any isLineEnd = true
      · -- the percent sign stops the first piece, if this does not end before
        obtain ⟨n, hn, lexes⟩ := lexes_cons.mp lexes
        have whole := localAt_restLength ends
        refine .inr ⟨n, whole.append_stops hn (.inr (by decide)), before.drop n, comment, ?_, lexes,
          unended⟩
        rw [List.drop_append_of_le_length (whole n hn).1]
      · obtain ⟨percent, none⟩ := Classical.not_imp.mp ends
        refine .inl ⟨percent, ?_⟩
        rw [List.any_append, eq_false_of_ne_true none, List.any_cons, unended]
        rfl
  · rintro (⟨rfl, unended⟩ | ⟨n, hn, before, comment, split, lexes, unended⟩)
    · exact ⟨[], rest, rfl, lexes_nil, unended⟩
    · by_cases ends : b = byte '%' → rest.any isLineEnd = true
      · obtain ⟨bound, same⟩ := localAt_restLength ends n hn
        refine ⟨b :: (rest.take n ++ before), comment, ?_,
          lexes_cons.mpr ⟨n, same before (.inl ⟨_, split.symm⟩), ?_⟩, unended⟩
        · rw [List.cons_append, List.append_assoc, ← split, List.take_append_drop]
        · rwa [List.drop_left' (List.length_take_of_le bound)]
      · obtain ⟨rfl, none⟩ := Classical.not_imp.mp ends
        exact ⟨[], rest, rfl, lexes_nil, eq_false_of_ne_true none⟩

/-- **Code that goes on after it can be scanned to its end, not within a comment, has the
    tokens of both parts**, if what comes next stops the last piece. -/
theorem tokensOf_append {code more : List UInt8} (lexes : Lexes code)
    (comment : ¬EndsInComment code) (stops : Stops more) :
    tokensOf (code ++ more) = tokensOf code ++ tokensOf more := by
  induction code using pieces_induction with
  | nil => rw [tokensOf_nil, List.nil_append, List.nil_append]
  | cons b rest ih =>
    obtain ⟨n, hn, lexes⟩ := lexes_cons.mp lexes
    have whole : LocalAt (restLength b) rest := localAt_restLength fun percent =>
      eq_true_of_ne_false fun none => comment (endsInComment_cons.mpr (.inl ⟨percent, none⟩))
    have later := ih n lexes fun h => comment (endsInComment_cons.mpr (.inr ⟨n, hn, h⟩))
    rw [List.cons_append, tokensOf_cons, tokensOf_cons, hn, whole.append_stops hn stops]
    dsimp only
    rw [List.take_append_of_le_length (whole n hn).1,
      List.drop_append_of_le_length (whole n hn).1, later, List.append_assoc]

end DviMarkup.PostScript
