/-
  Code is scanned by its grammar.

  * `tokensOf_spells`: what spells a token is scanned as this token;
  * `tokensOf_faulty`: what is faulty is scanned as the fault;
  * `tokensOf_code`: so the tokens of code are those of the grammar;
  * `exists_cut`: code can be cut wherever it was scanned;
  * `tokens_iff_code`: code is scanned as tokens exactly if it is these tokens with gaps
    between them, and up to a fault exactly if it is tokens and gaps with the fault at its end.
-/
import DviMarkup.Proofs.PostScript.Lengths

namespace DviMarkup.PostScript

/-! ## Tokens -/

/-- A piece that is scanned to its end is the lexeme that it begins, if this is one. -/
theorem tokensOf_piece {b : UInt8} (front : List UInt8) {rest : List UInt8}
    (h : restLength b (front ++ rest) = .ok front.length) :
    tokensOf (b :: (front ++ rest)) =
      (lexeme? b front.length).toList.map (fun l => .ok (Token.ofLexeme (b :: front) l)) ++
        tokensOf rest := by
  rw [tokensOf_cons, h]
  dsimp only
  rw [List.take_left, List.drop_left]

theorem tokensOf_fault {b : UInt8} {rest : List UInt8} {fault : Fault}
    (h : restLength b rest = .error fault) : tokensOf (b :: rest) = [.error fault] := by
  rw [tokensOf_cons, h]

theorem restLength_percent (x : List UInt8) :
    restLength (byte '%') x = .ok (commentLength x) := rfl

theorem lexeme?_percent (n : Nat) : lexeme? (byte '%') n = none := rfl

/-- Gaps have no tokens. -/
theorem tokensOf_gap {gap : List Char} (h : Gap gap) (x : List UInt8) :
    tokensOf (bytes gap ++ x) = tokensOf x := by
  induction h with
  | nil => rfl
  | @space c gap hc _ ih =>
    obtain ⟨ascii, blank⟩ := ascii_of_isSpace hc
    have none : lexeme? (byte c) 0 = none := if_pos blank
    rw [bytes_cons_ascii ascii, List.cons_append, ← ih]
    refine (tokensOf_piece [] (if_pos blank)).trans ?_
    rw [List.length_nil, none]
    rfl
  | @comment words c gap hwords hc _ ih =>
    obtain ⟨ascii, line⟩ := ascii_of_endsComment hc
    have text : bytes ('%' :: (words ++ c :: gap)) ++ x =
        byte '%' :: ((bytes words ++ [byte c]) ++ (bytes gap ++ x)) := by
      rw [bytes_cons_ascii (by decide), bytes_append, bytes_cons_ascii ascii]
      simp only [List.cons_append, List.append_assoc, List.nil_append]
    have length : restLength (byte '%') ((bytes words ++ [byte c]) ++ (bytes gap ++ x)) =
        .ok (bytes words ++ [byte c]).length := by
      rw [restLength_percent, List.append_assoc, commentLength_words hwords, List.singleton_append,
        commentLength, if_pos line, List.length_append, Nat.add_comm]
      rfl
    rw [text, tokensOf_piece _ length, ih, lexeme?_percent]
    rfl

/-- A comment without an end has none either. -/
theorem tokensOf_ended {text : List Char} (h : Ended text) : tokensOf (bytes text) = [] := by
  rcases h with rfl | ⟨words, rfl, hwords⟩
  · exact tokensOf_nil
  · have length : restLength (byte '%') (bytes words ++ []) = .ok (bytes words).length := by
      rw [restLength_percent, commentLength_words hwords, commentLength, Nat.zero_add]
    rw [bytes_cons_ascii (by decide), ← List.append_nil (bytes words), tokensOf_piece _ length,
      lexeme?_percent, tokensOf_nil]
    rfl

theorem restLength_opening (e : Enclosure) (x : List UInt8) :
    restLength (byte e.opening) x = e.length 0 x := by
  cases e <;> rfl

/-- A piece that is a lexeme is the token that its text means. -/
theorem tokensOf_lexeme {b : UInt8} {front rest : List UInt8} {l : Lexeme} {text : List Char}
    (length : restLength b (front ++ rest) = .ok front.length)
    (lexeme : lexeme? b front.length = some l) (inner : l.bytes (b :: front) = bytes text) :
    tokensOf (b :: (front ++ rest)) =
      .ok (Token.ofText (String.ofList text) l.kind) :: tokensOf rest := by
  rw [tokensOf_piece _ length, lexeme]
  have meaning : Token.ofLexeme (b :: front) l = Token.ofText (String.ofList text) l.kind := by
    rw [Token.ofLexeme, inner, decode_bytes]
  exact congrArg (fun t => .ok t :: tokensOf rest) meaning

theorem tokensOf_enclosed {e : Enclosure} {text : List Char} (h : e.Encloses text)
    (x : List UInt8) : tokensOf (bytes (e.opening :: (text ++ [e.closing])) ++ x) =
      .ok (e.token (String.ofList text)) :: tokensOf x := by
  have split : bytes (e.opening :: (text ++ [e.closing])) ++ x =
      byte e.opening :: ((bytes text ++ [byte e.closing]) ++ x) := by
    rw [bytes_cons_ascii e.ascii_opening, bytes_append, bytes_cons_ascii e.ascii_closing]
    rfl
  have length : restLength (byte e.opening) ((bytes text ++ [byte e.closing]) ++ x) =
      .ok (bytes text ++ [byte e.closing]).length := by
    rw [restLength_opening, List.append_assoc,
      e.length_climbs h.1 (Climbs.balanced_iff.mp h.2), List.singleton_append, e.length_closing,
      List.length_append, Nat.add_comm]
    rfl
  have inner (kind : Kind) : Lexeme.bytes ⟨kind, 1, (bytes text ++ [byte e.closing]).length⟩
      (byte e.opening :: (bytes text ++ [byte e.closing])) = bytes text := by
    unfold Lexeme.bytes
    rw [List.length_append]
    exact List.take_left
  rw [split]
  cases e with
  | string => exact tokensOf_lexeme length rfl (inner .string)
  | procedure => exact tokensOf_lexeme length rfl (inner .procedure)

theorem tokensOf_name {text : List Char} (h : Word text) {x : List UInt8} (stops : Stops x) :
    tokensOf (bytes ('/' :: text) ++ x) = .ok (.name (String.ofList text)) :: tokensOf x := by
  have length : restLength (byte '/') (bytes text ++ x) = .ok (bytes text).length := by
    have raw : restLength (byte '/') (bytes text ++ x) = rawLength (bytes text ++ x) := rfl
    rw [raw, rawLength_word h, rawLength_of_stops stops]
    exact congrArg Except.ok (Nat.zero_add _)
  have inner : Lexeme.bytes ⟨.name, 1, 1 + (bytes text).length⟩ (byte '/' :: bytes text) =
      bytes text := by
    unfold Lexeme.bytes
    rw [Nat.add_sub_cancel_left]
    exact List.take_length
  rw [bytes_cons_ascii (by decide), List.cons_append]
  exact tokensOf_lexeme length rfl inner

/-- Of a raw text, it is scanned as much as of a word. -/
theorem Raw.restLength {text : List Char} (h : Raw text) :
    ∃ b front, bytes text = b :: front ∧
      (∀ n, lexeme? b n = some ⟨.raw, 0, 1 + n⟩) ∧
      ∀ x, restLength b (front ++ x) = (rawLength x).map (· + front.length) := by
  obtain ⟨c, rest, rfl, space, first, word⟩ := h
  obtain ⟨b, later, hc, great⟩ := exists_utf8EncodeChar c
  have hb : b ∈ String.utf8EncodeChar c := by
    rw [hc]
    exact List.mem_cons_self
  have blank : ¬isBlank b = true := fun blank =>
    ne_true_of_eq_false space (isSpace_of_mem hb blank)
  have other (d : Char) (hd : "%[]/(\x7b".toList.contains d = true) : b ≠ byte d := by
    have ascii : ("%[]/(\x7b".toList.all fun d => d.toNat < 128) = true := by decide
    rintro rfl
    rw [eq_of_mem_utf8EncodeChar (of_decide_eq_true (of_contains ascii hd)) hb, hd] at first
    cases first
  have percent := other '%' (by decide)
  have brace := other '\x7b' (by decide)
  have paren := other '(' (by decide)
  have opens := other '[' (by decide)
  have closes := other ']' (by decide)
  have slash := other '/' (by decide)
  have split : bytes (c :: rest) = b :: (later ++ bytes rest) := by
    rw [bytes_cons, hc, List.cons_append]
  refine ⟨b, later ++ bytes rest, split, fun n => ?_, fun x => ?_⟩
  · unfold lexeme?
    rw [if_neg blank, if_neg percent, if_neg brace, if_neg paren, if_neg opens, if_neg closes,
      if_neg slash]
  · by_cases escape : c = '\\'
    · subst escape
      rw [if_pos rfl] at word
      rw [utf8EncodeChar_ascii (by decide)] at hc
      obtain ⟨rfl, rfl⟩ := List.cons.inj hc
      have whole := rawLength_word word x
      rw [bytes_cons_ascii (by decide), List.length_cons, ← map_add_map_add] at whole
      exact map_add_one_inj ((rawLength_backslash _).symm.trans whole)
    · rw [if_neg escape] at word
      have notBackslash : b ≠ backslash := by
        rintro rfl
        exact escape (eq_of_mem_utf8EncodeChar (d := '\\') (by decide) hb)
      unfold PostScript.restLength
      rw [if_neg blank, if_neg percent, if_neg brace, if_neg paren,
        if_neg (not_or.mpr ⟨opens, closes⟩), if_neg notBackslash, List.append_assoc,
        rawLength_ordinary fun y hy => ordinary_of_le (great y hy), rawLength_word word,
        map_add_map_add, List.length_append, Nat.add_comm]

theorem tokensOf_raw {text : List Char} (h : Raw text) {x : List UInt8} (stops : Stops x) :
    tokensOf (bytes text ++ x) = .ok (Token.ofText (String.ofList text) .raw) :: tokensOf x := by
  obtain ⟨b, front, hbytes, lexeme, length⟩ := h.restLength
  have whole : restLength b (front ++ x) = .ok front.length := by
    rw [length, rawLength_of_stops stops]
    exact congrArg Except.ok (Nat.zero_add _)
  have inner : Lexeme.bytes ⟨.raw, 0, 1 + front.length⟩ (b :: front) = bytes text := by
    rw [hbytes, Nat.add_comm 1]
    exact List.take_length (l := b :: front)
  rw [hbytes, List.cons_append]
  exact tokensOf_lexeme whole (lexeme _) inner

/-- **What spells a token is scanned as this token**, whatever comes after it. -/
theorem tokensOf_spells {text rest : List Char} {t : Token} (h : Spells text t)
    (stops : t.isWord = true → AtEnd rest) :
    tokensOf (bytes (text ++ rest)) = .ok t :: tokensOf (bytes rest) := by
  rw [bytes_append]
  cases h with
  | arrayStart => exact tokensOf_piece [] rfl
  | arrayEnd => exact tokensOf_piece [] rfl
  | name hword => exact tokensOf_name hword (stops_bytes (stops rfl))
  | enclosed encloses => exact tokensOf_enclosed encloses _
  | number d =>
    rw [tokensOf_raw ((word_spelling d).raw d.spelling_ne_nil) (stops_bytes (stops rfl))]
    have number : Numeral.plain? d.spelling = some d.value :=
      Numeral.plain?_eq_some_iff.mpr ⟨d, rfl, rfl⟩
    unfold Token.ofText
    dsimp only
    rw [String.toList_ofList, number]
  | operator raw notNumber =>
    rw [tokensOf_raw raw (stops_bytes (stops rfl))]
    have none : Numeral.plain? text = none := by
      refine Option.eq_none_iff_forall_ne_some.mpr fun n hn => ?_
      obtain ⟨d, hd, -⟩ := Numeral.plain?_eq_some_iff.mp hn
      exact notNumber d hd
    unfold Token.ofText
    dsimp only
    rw [String.toList_ofList, none]

/-! ## Faults -/

theorem bytes_concat_backslash (text : List Char) :
    bytes (text ++ ['\\']) = bytes text ++ [backslash] :=
  bytes_append text ['\\']

/-- What is faulty is scanned as the fault. -/
theorem tokensOf_faulty {fault : Fault} {text : List Char} (h : Faulty fault text) :
    tokensOf (bytes text) = [.error fault] := by
  cases h with
  | @unclosed e text closes escape =>
    obtain ⟨depth, climbs⟩ := e.exists_climbs closes
    rw [bytes_cons_ascii e.ascii_opening]
    refine tokensOf_fault ?_
    rw [restLength_opening, ← List.append_nil (bytes text), e.length_climbs escape climbs]
    rfl
  | @enclosed e text closes escape =>
    obtain ⟨depth, climbs⟩ := e.exists_climbs closes
    obtain ⟨front, rfl, none⟩ := exists_of_mem_unescaped escape
    rw [unescaped_append none] at climbs
    obtain ⟨depth', climbs⟩ := climbs.of_append
    rw [bytes_cons_ascii e.ascii_opening, bytes_concat_backslash]
    refine tokensOf_fault ?_
    rw [restLength_opening, e.length_climbs none climbs]
    rfl
  | @name text hword =>
    have raw : restLength (byte '/') (bytes text ++ [backslash]) =
        rawLength (bytes text ++ [backslash]) := rfl
    rw [bytes_cons_ascii (by decide), bytes_concat_backslash]
    refine tokensOf_fault ?_
    rw [raw, rawLength_word hword]
    rfl
  | @raw text h =>
    rw [bytes_concat_backslash]
    rcases h with rfl | h
    · exact tokensOf_fault rfl
    · obtain ⟨b, front, hbytes, -, length⟩ := h.restLength
      rw [hbytes, List.cons_append]
      refine tokensOf_fault ?_
      rw [length]
      rfl

/-! ## Code -/

/-- **The tokens of code are those of the grammar**, and what its end is scanned as. -/
theorem tokensOf_code {ending : List Char → Prop} {text : List Char} {ts : List Token}
    {later : List (Except Fault Token)} (h : Code ending text ts)
    (last : ∀ text, ending text → tokensOf (bytes text) = later) :
    tokensOf (bytes text) = ts.map .ok ++ later := by
  induction h with
  | last gap hend =>
    rw [bytes_append, tokensOf_gap gap]
    exact last _ hend
  | next gap spells stops _ ih =>
    rw [List.append_assoc, bytes_append, tokensOf_gap gap, tokensOf_spells spells stops, ih]
    rfl

/-- What the ends of code are scanned as. -/
inductive EndsWith : (List Char → Prop) → List (Except Fault Token) → Prop
  | ended : EndsWith Ended []
  | faulty (fault : Fault) : EndsWith (Faulty fault) [.error fault]

theorem tokens_of_code {ending : List Char → Prop} {code : String} {ts : List Token}
    {last : List (Except Fault Token)} (h : Code ending code.toList ts)
    (hlast : EndsWith ending last) : tokens code = ts.map .ok ++ last := by
  rw [tokens_eq, encode_eq_bytes]
  cases hlast with
  | ended => exact tokensOf_code h fun _ => tokensOf_ended
  | faulty fault => exact tokensOf_code h fun _ => tokensOf_faulty

/-- What is scanned first are the tokens that come first. -/
theorem exists_of_map_ok_append {ts us : List Token} {last later : List (Except Fault Token)}
    (stops : ∀ t rest, last ≠ .ok t :: rest) (h : us.map .ok ++ last = ts.map .ok ++ later) :
    ∃ vs, us = ts ++ vs ∧ later = vs.map .ok ++ last := by
  induction ts generalizing us with
  | nil => exact ⟨us, rfl, h.symm⟩
  | cons t ts ih =>
    cases us with
    | nil => exact absurd h (stops t _)
    | cons u us =>
      obtain ⟨first, rest⟩ := List.cons.inj h
      obtain ⟨vs, rfl, rfl⟩ := ih rest
      exact ⟨vs, by rw [Except.ok.inj first]; rfl, rfl⟩

/-- If code is scanned as tokens and something else, then the code is these tokens and
    others, with gaps between them. -/
theorem exists_code_of_tokens {code : String} {ts : List Token}
    {later : List (Except Fault Token)} (h : tokens code = ts.map .ok ++ later) :
    ∃ us ending last, later = us.map .ok ++ last ∧ Code ending code.toList (ts ++ us) ∧
      EndsWith ending last := by
  obtain ⟨ending, ts', hcode, hend⟩ := exists_code code.toList
  obtain ⟨last, hlast⟩ : ∃ last, EndsWith ending last := by
    rcases hend with rfl | ⟨fault, rfl⟩
    · exact ⟨[], .ended⟩
    · exact ⟨_, .faulty fault⟩
  have stops : ∀ t rest, last ≠ .ok t :: rest := by
    cases hlast <;> exact nofun
  obtain ⟨us, rfl, rfl⟩ := exists_of_map_ok_append stops ((tokens_of_code hcode hlast).symm.trans h)
  exact ⟨us, ending, last, rfl, hcode, hlast⟩

/-- Code can be cut wherever it was scanned. -/
theorem exists_cut {code : String} {ts : List Token} {later : List (Except Fault Token)}
    (h : tokens code = ts.map .ok ++ later) :
    ∃ before after, code = before ++ after ∧ tokens before = ts.map .ok ∧ tokens after = later := by
  obtain ⟨us, ending, last, rfl, hcode, hlast⟩ := exists_code_of_tokens h
  obtain ⟨front, back, split, hfront, hback⟩ := hcode.split
  rw [← String.toList_ofList (l := front)] at hfront
  rw [← String.toList_ofList (l := back)] at hback
  refine ⟨.ofList front, .ofList back, ?_, ?_, tokens_of_code hback hlast⟩
  · rw [← String.ofList_append, ← split, String.ofList_toList]
  · rw [tokens_of_code hfront .ended, List.append_nil]

/-- **Code is scanned as tokens exactly if it is these tokens with gaps between them**, and
    up to a fault exactly if it is tokens and gaps with the fault at its end.  Nothing comes
    after the fault. -/
theorem tokens_iff_code (code : String) :
    (∀ ts, tokens code = ts.map .ok ↔ Code Ended code.toList ts) ∧
      ∀ ts fault later, tokens code = ts.map .ok ++ .error fault :: later ↔
        later = [] ∧ Code (Faulty fault) code.toList ts := by
  refine ⟨fun ts => ⟨fun h => ?_, fun h => ?_⟩, fun ts fault later => ⟨fun h => ?_, ?_⟩⟩
  · obtain ⟨us, ending, last, none, hcode, hlast⟩ :=
      exists_code_of_tokens (h.trans (List.append_nil _).symm)
    obtain ⟨nothing, rfl⟩ := List.append_eq_nil_iff.mp none.symm
    obtain rfl := List.map_eq_nil_iff.mp nothing
    cases hlast
    rwa [List.append_nil] at hcode
  · rw [tokens_of_code h .ended, List.append_nil]
  · obtain ⟨us, ending, last, split, hcode, hlast⟩ := exists_code_of_tokens h
    cases us with
    | nil =>
      cases hlast with
      | ended => cases split
      | faulty =>
        cases split
        rw [List.append_nil] at hcode
        exact ⟨rfl, hcode⟩
    | cons u us => cases split
  · rintro ⟨rfl, hcode⟩
    exact tokens_of_code hcode (.faulty fault)

end DviMarkup.PostScript
