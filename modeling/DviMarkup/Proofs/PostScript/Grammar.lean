/-
  The grammar of code.

  Code is made of tokens and of gaps between them.  Here is said of texts what they are,
  and not how code is scanned: which texts are a gap, which texts spell a token, and when
  there is a fault.

  * `unescaped` are the characters of a text that are not taken along by a backslash, and
    `Word`, `Raw` and `Enclosure.Encloses` are about them;
  * `Gap` are blanks and comments, and `Spells` are the texts that spell a token;
  * `Code` are gaps and tokens in turn, and something else at the end: nothing but a comment
    (`Ended`), or a fault (`Faulty`);
  * `exists_code`: every text is code with one of these ends;
  * `Code.split`: code can be cut before each of its tokens.
-/
import Mathlib.Data.List.Infix
import DviMarkup.PostScript.Lexeme
import DviMarkup.Proofs.Number.Decimal
import DviMarkup.Proofs.Typesetter.Brackets

namespace DviMarkup.PostScript

/-! ## Characters -/

/-- Whether a character separates tokens. -/
def isSpace (c : Char) : Bool :=
  " \t\n\r\x0C\x00".toList.contains c

/-- Whether a character always stands for itself. -/
def isSpecial (c : Char) : Bool :=
  "()<>[]\x7b\x7d/%".toList.contains c

/-- What holds of some characters holds of each of them. -/
theorem of_contains {some : List Char} {p : Char → Bool} (h : some.all p = true) {c : Char}
    (hc : some.contains c = true) : p c = true :=
  List.all_eq_true.mp h c (List.contains_iff_mem.mp hc)

/-- Whether a character is the end of a word. -/
def endsWord (c : Char) : Bool :=
  isSpace c || isSpecial c

/-- Whether a character is the end of a comment. -/
def endsComment (c : Char) : Bool :=
  c = '\n' || c = '\r'

/-- The characters of a text that are not taken along by a backslash.  The backslash goes
    too, unless it is at the end and takes nothing along. -/
def unescaped : List Char → List Char
  | [] => []
  | '\\' :: _ :: text => unescaped text
  | c :: text => c :: unescaped text

theorem unescaped_cons {c : Char} (h : c ≠ '\\') (text : List Char) :
    unescaped (c :: text) = c :: unescaped text := by
  rw [unescaped]
  exact fun _ _ heq => absurd heq h

/-- A backslash at the end of a text takes along what comes after it; if there is none, the
    texts do not matter to each other. -/
theorem unescaped_append {a : List Char} (h : '\\' ∉ unescaped a) (b : List Char) :
    unescaped (a ++ b) = unescaped a ++ unescaped b := by
  fun_induction unescaped a with
  | case1 => rfl
  | case2 _ text ih => exact ih h
  | case3 c text _ ih =>
    rw [List.mem_cons, not_or] at h
    rw [List.cons_append, unescaped_cons (Ne.symm h.1), ih h.2, List.cons_append]

theorem mem_of_mem_unescaped {c : Char} {text : List Char} (h : c ∈ unescaped text) : c ∈ text := by
  fun_induction unescaped text with
  | case1 => exact h
  | case2 d text ih => exact List.mem_cons_of_mem _ (List.mem_cons_of_mem _ (ih h))
  | case3 d text _ ih =>
    rcases List.mem_cons.mp h with rfl | h
    · exact List.mem_cons_self
    · exact List.mem_cons_of_mem _ (ih h)

/-- A backslash that takes nothing along is at the end. -/
theorem exists_of_mem_unescaped {text : List Char} (h : '\\' ∈ unescaped text) :
    ∃ front, text = front ++ ['\\'] ∧ '\\' ∉ unescaped front := by
  fun_induction unescaped text with
  | case1 => cases h
  | case2 c text ih =>
    obtain ⟨front, rfl, hfront⟩ := ih h
    exact ⟨'\\' :: c :: front, rfl, hfront⟩
  | case3 c text notPair ih =>
    by_cases hc : c = '\\'
    · cases text with
      | nil => exact ⟨[], by rw [hc]; rfl, nofun⟩
      | cons d text => exact absurd rfl (notPair d text hc)
    · obtain ⟨front, rfl, hfront⟩ := ih ((List.mem_cons.mp h).resolve_left (Ne.symm hc))
      refine ⟨c :: front, rfl, ?_⟩
      rw [unescaped_cons hc, List.mem_cons, not_or]
      exact ⟨Ne.symm hc, hfront⟩

/-! ## Words -/

/-- Whether a text has no character that ends a word, besides those that a backslash takes
    along. -/
def Word (text : List Char) : Prop :=
  ∀ c ∈ unescaped text, endsWord c = false ∧ c ≠ '\\'

instance (text : List Char) : Decidable (Word text) :=
  List.decidableBAll _ _

/-- Whether a text begins with a character that ends a word, or is empty. -/
def AtEnd (text : List Char) : Prop :=
  ∀ c ∈ text.head?, endsWord c = true

instance (text : List Char) : Decidable (AtEnd text) :=
  Option.decidableForallMem _

/-- Whether a text is a word after its first character, which may be any that begins
    nothing else. -/
def Raw (text : List Char) : Prop :=
  ∃ c rest, text = c :: rest ∧ isSpace c = false ∧ "%[]/(\x7b".toList.contains c = false ∧
    if c = '\\' then Word text else Word rest

/-- Text begins with as many characters of a word as possible. -/
theorem exists_word (text : List Char) :
    ∃ word rest, text = word ++ rest ∧ Word word ∧ (AtEnd rest ∨ rest = ['\\']) := by
  fun_induction unescaped text with
  | case1 => exact ⟨[], [], rfl, nofun, .inl nofun⟩
  | case2 c text ih =>
    obtain ⟨word, rest, rfl, hword, hrest⟩ := ih
    exact ⟨'\\' :: c :: word, rest, rfl, hword, hrest⟩
  | case3 c text notPair ih =>
    by_cases hc : c = '\\'
    · cases text with
      | nil => exact ⟨[], [c], rfl, nofun, .inr (by rw [hc])⟩
      | cons d text => exact absurd rfl (notPair d text hc)
    · by_cases stops : endsWord c = true
      · refine ⟨[], c :: text, rfl, nofun, .inl ?_⟩
        rintro _ ⟨⟩
        exact stops
      · obtain ⟨word, rest, rfl, hword, hrest⟩ := ih
        refine ⟨c :: word, rest, rfl, ?_, hrest⟩
        unfold Word
        rw [unescaped_cons hc, List.forall_mem_cons]
        exact ⟨⟨eq_false_of_ne_true stops, hc⟩, hword⟩

/-- A word is one after its first character too. -/
theorem Word.raw {text : List Char} (h : Word text) (nonempty : text ≠ []) : Raw text := by
  cases text with
  | nil => exact absurd rfl nonempty
  | cons c rest =>
    by_cases hc : c = '\\'
    · subst hc
      exact ⟨_, rest, rfl, by decide, by decide, h⟩
    · unfold Word at h
      rw [unescaped_cons hc, List.forall_mem_cons] at h
      obtain ⟨⟨stops, -⟩, hrest⟩ := h
      obtain ⟨space, special⟩ := Bool.or_eq_false_iff.mp stops
      refine ⟨c, rest, rfl, space, ?_, ?_⟩
      · refine eq_false_of_ne_true fun first => ?_
        have subset : "%[]/(\x7b".toList.all isSpecial = true := by decide
        rw [of_contains subset first] at special
        cases special
      · rwa [if_neg hc]

theorem endsWord_of_isDigit {c : Char} (h : Numeral.isDigit c = true) : endsWord c = false := by
  have spaces : (" \t\n\r\x0C\x00".toList.all fun d => !Numeral.isDigit d) = true := by decide
  have specials : ("()<>[]\x7b\x7d/%".toList.all fun d => !Numeral.isDigit d) = true := by decide
  refine Bool.or_eq_false_iff.mpr
    ⟨eq_false_of_ne_true fun hc => ?_, eq_false_of_ne_true fun hc => ?_⟩
  · have other : (!Numeral.isDigit c) = true := of_contains spaces hc
    rw [h] at other
    cases other
  · have other : (!Numeral.isDigit c) = true := of_contains specials hc
    rw [h] at other
    cases other

theorem word_spelling (d : Decimal) : Word d.spelling := by
  intro c hc
  rcases Decimal.of_mem_spelling (mem_of_mem_unescaped hc) with h | rfl | rfl | rfl
  · refine ⟨endsWord_of_isDigit h, ?_⟩
    rintro rfl
    cases h
  · decide
  · decide
  · decide

/-! ## Text between delimiters -/

/-- What text can stand between. -/
inductive Enclosure where
  /-- Parentheses. -/
  | string
  /-- Braces. -/
  | procedure

namespace Enclosure

def opening : Enclosure → Char
  | string => '('
  | procedure => '\x7b'

def closing : Enclosure → Char
  | string => ')'
  | procedure => '\x7d'

/-- The token with a text between the delimiters. -/
def token : Enclosure → String → Token
  | string => .string
  | procedure => .procedure

/-- The fault if the text is not closed. -/
def unclosed : Enclosure → Fault
  | string => .unterminatedString
  | procedure => .unterminatedProcedure

/-- Whether a text can stand between the delimiters: those in it are balanced, besides those
    that a backslash takes along, and no backslash is left over at the end. -/
def Encloses (e : Enclosure) (text : List Char) : Prop :=
  '\\' ∉ unescaped text ∧ Balanced e.opening e.closing (unescaped text)

instance (e : Enclosure) (text : List Char) : Decidable (e.Encloses text) :=
  inferInstanceAs (Decidable (_ ∧ _))

/-- Whether a text has a delimiter in it that closes it. -/
def Closes (e : Enclosure) (text : List Char) : Prop :=
  ∃ inner rest, text = inner ++ e.closing :: rest ∧ e.Encloses inner

end Enclosure

/-! ## Gaps and tokens -/

/-- Blanks and comments, each of these up to the end of a line. -/
inductive Gap : List Char → Prop
  | nil : Gap []
  | space {c text} : isSpace c = true → Gap text → Gap (c :: text)
  | comment {words c text} : (∀ d ∈ words, endsComment d = false) → endsComment c = true →
      Gap text → Gap ('%' :: (words ++ c :: text))

/-- The texts that spell a token. -/
inductive Spells : List Char → Token → Prop
  | arrayStart : Spells ['['] .arrayStart
  | arrayEnd : Spells [']'] .arrayEnd
  | name {text} : Word text → Spells ('/' :: text) (.name (String.ofList text))
  | enclosed {e : Enclosure} {text} : e.Encloses text →
      Spells (e.opening :: (text ++ [e.closing])) (e.token (String.ofList text))
  | number (d : Decimal) : Spells d.spelling (.number d.value)
  | operator {text} : Raw text → (∀ d : Decimal, d.spelling ≠ text) →
      Spells text (.operator (String.ofList text))

/-- Whether a token goes on as long as nothing ends it. -/
def Token.isWord : Token → Bool
  | .name _ | .number _ | .operator _ => true
  | _ => false

/-! ## Code -/

/-- Gaps and tokens in turn, and something else at the end. -/
inductive Code (ending : List Char → Prop) : List Char → List Token → Prop
  | last {gap text} : Gap gap → ending text → Code ending (gap ++ text) []
  | next {gap word t text ts} : Gap gap → Spells word t → (t.isWord = true → AtEnd text) →
      Code ending text ts → Code ending (gap ++ word ++ text) (t :: ts)

/-- Nothing, or a comment without an end. -/
def Ended (text : List Char) : Prop :=
  text = [] ∨ ∃ words, text = '%' :: words ∧ ∀ c ∈ words, endsComment c = false

/-- What cannot be a token: text that is not closed, and a backslash at the end with nothing
    to take along. -/
inductive Faulty : Fault → List Char → Prop
  | unclosed {e : Enclosure} {text} : ¬e.Closes text → '\\' ∉ unescaped text →
      Faulty e.unclosed (e.opening :: text)
  | enclosed {e : Enclosure} {text} : ¬e.Closes text → '\\' ∈ unescaped text →
      Faulty .trailingEscape (e.opening :: text)
  | name {text} : Word text → Faulty .trailingEscape ('/' :: (text ++ ['\\']))
  | raw {text} : text = [] ∨ Raw text → Faulty .trailingEscape (text ++ ['\\'])

/-! ## Every text is code -/

theorem Gap.append {a b : List Char} (ha : Gap a) (hb : Gap b) : Gap (a ++ b) := by
  induction ha with
  | nil => exact hb
  | space hc _ ih => exact .space hc ih
  | comment words hc _ ih =>
    rw [List.cons_append, List.append_assoc]
    exact .comment words hc ih

/-- A comment goes on to the end of a line, or to the end of the text. -/
theorem exists_line (text : List Char) :
    (∀ c ∈ text, endsComment c = false) ∨ ∃ words c rest, text = words ++ c :: rest ∧
      (∀ d ∈ words, endsComment d = false) ∧ endsComment c = true := by
  induction text with
  | nil => exact .inl nofun
  | cons c text ih =>
    by_cases hc : endsComment c = true
    · exact .inr ⟨[], c, text, rfl, nofun, hc⟩
    · have hc := eq_false_of_ne_true hc
      rcases ih with h | ⟨words, d, rest, rfl, hwords, hd⟩
      · exact .inl (List.forall_mem_cons.mpr ⟨hc, h⟩)
      · exact .inr ⟨c :: words, d, rest, rfl, List.forall_mem_cons.mpr ⟨hc, hwords⟩, hd⟩

theorem Raw.exists_spells {text : List Char} (h : Raw text) : ∃ t, Spells text t := by
  by_cases decimal : ∃ d : Decimal, d.spelling = text
  · obtain ⟨d, rfl⟩ := decimal
    exact ⟨_, .number d⟩
  · exact ⟨_, .operator h fun d hd => decimal ⟨d, hd⟩⟩

/-- What a text begins with: something of a gap, a token or one of the ends. -/
inductive Begins : List Char → Prop
  | gap {gap rest} : gap ≠ [] → Gap gap → Begins (gap ++ rest)
  | token {word t rest} : word ≠ [] → Spells word t → (t.isWord = true → AtEnd rest) →
      Begins (word ++ rest)
  | ended {text} : Ended text → Begins text
  | faulty {fault text} : Faulty fault text → Begins text

theorem begins_enclosed (e : Enclosure) (text : List Char) : Begins (e.opening :: text) := by
  by_cases closes : e.Closes text
  · obtain ⟨inner, rest, rfl, encloses⟩ := closes
    have h : Begins (e.opening :: (inner ++ [e.closing]) ++ rest) :=
      .token (List.cons_ne_nil _ _) (.enclosed encloses) (by cases e <;> exact nofun)
    rwa [List.cons_append, List.append_assoc] at h
  · by_cases escape : '\\' ∈ unescaped text
    · exact .faulty (.enclosed closes escape)
    · exact .faulty (.unclosed closes escape)

theorem begins_raw {c : Char} {text : List Char} (space : isSpace c = false)
    (first : "%[]/(\x7b".toList.contains c = false) : Begins (c :: text) := by
  -- all that is a word, with its first character
  have raw {word rest : List Char} (h : Raw word) (hrest : AtEnd rest ∨ rest = ['\\']) :
      Begins (word ++ rest) := by
    rcases hrest with hrest | rfl
    · obtain ⟨t, spells⟩ := h.exists_spells
      obtain ⟨c, rest, rfl, -⟩ := h
      exact .token (List.cons_ne_nil _ _) spells fun _ => hrest
    · exact .faulty (.raw (.inr h))
  by_cases hc : c = '\\'
  · obtain ⟨word, rest, heq, hword, hrest⟩ := exists_word (c :: text)
    rw [heq]
    cases word with
    | nil =>
      rcases hrest with hrest | rfl
      · have stops := hrest c (by rw [← List.nil_append rest, ← heq]; rfl)
        rw [hc] at stops
        cases stops
      · exact .faulty (.raw (.inl rfl))
    | cons d word => exact raw (hword.raw (List.cons_ne_nil _ _)) hrest
  · obtain ⟨word, rest, rfl, hword, hrest⟩ := exists_word text
    exact raw ⟨c, word, rfl, space, first, by rwa [if_neg hc]⟩ hrest

theorem begins_cons (c : Char) (text : List Char) : Begins (c :: text) := by
  by_cases space : isSpace c = true
  · show Begins ([c] ++ text)
    exact .gap (List.cons_ne_nil _ _) (.space space .nil)
  by_cases comment : c = '%'
  · subst comment
    rcases exists_line text with h | ⟨words, d, rest, rfl, hwords, hd⟩
    · exact .ended (.inr ⟨text, rfl, h⟩)
    · have h : Begins ('%' :: (words ++ [d]) ++ rest) :=
        .gap (List.cons_ne_nil _ _) (.comment hwords hd .nil)
      rwa [List.cons_append, List.append_assoc] at h
  by_cases opens : ∃ e : Enclosure, c = e.opening
  · obtain ⟨e, rfl⟩ := opens
    exact begins_enclosed e text
  by_cases start : c = '['
  · subst start
    show Begins (['['] ++ text)
    exact .token (List.cons_ne_nil _ _) .arrayStart nofun
  by_cases stop : c = ']'
  · subst stop
    show Begins ([']'] ++ text)
    exact .token (List.cons_ne_nil _ _) .arrayEnd nofun
  by_cases slash : c = '/'
  · subst slash
    obtain ⟨word, rest, rfl, hword, hrest⟩ := exists_word text
    rcases hrest with hrest | rfl
    · show Begins ('/' :: word ++ rest)
      exact .token (List.cons_ne_nil _ _) (.name hword) fun _ => hrest
    · exact .faulty (.name hword)
  · refine begins_raw (eq_false_of_ne_true space) (eq_false_of_ne_true fun first => ?_)
    have paren : c ≠ '(' := fun h => opens ⟨.string, h⟩
    have brace : c ≠ '\x7b' := fun h => opens ⟨.procedure, h⟩
    simp [comment, start, stop, slash, paren, brace] at first

/-- A gap in front belongs to the first gap. -/
theorem Code.gap {ending : List Char → Prop} {gap text : List Char} {ts : List Token}
    (hgap : Gap gap) (h : Code ending text ts) : Code ending (gap ++ text) ts := by
  cases h with
  | last first hend =>
    rw [← List.append_assoc]
    exact .last (hgap.append first) hend
  | next first spells hword later =>
    rw [← List.append_assoc, ← List.append_assoc]
    exact .next (hgap.append first) spells hword later

/-- **Every text is code**, with nothing but a comment at the end, or with a fault there. -/
theorem exists_code (text : List Char) :
    ∃ ending ts, Code ending text ts ∧ (ending = Ended ∨ ∃ fault, ending = Faulty fault) := by
  induction h : text.length using Nat.strongRecOn generalizing text with
  | ind n ih =>
    have shorter {front rest : List Char} (hfront : front ≠ []) (heq : text = front ++ rest) :
        rest.length < n := by
      have := List.length_pos_iff.mpr hfront
      rw [← h, heq, List.length_append]
      omega
    have begins : text = [] ∨ Begins text := by
      cases text with
      | nil => exact .inl rfl
      | cons c rest => exact .inr (begins_cons c rest)
    rcases begins with rfl | begins
    · exact ⟨Ended, [], .last .nil (.inl rfl), .inl rfl⟩
    cases begins with
    | gap nonempty hgap =>
      obtain ⟨ending, ts, later, hend⟩ := ih _ (shorter nonempty rfl) _ rfl
      exact ⟨ending, ts, later.gap hgap, hend⟩
    | token nonempty spells hword =>
      obtain ⟨ending, ts, later, hend⟩ := ih _ (shorter nonempty rfl) _ rfl
      exact ⟨ending, _, .next .nil spells hword later, hend⟩
    | ended hend => exact ⟨Ended, [], .last .nil hend, .inl rfl⟩
    | faulty hfault => exact ⟨_, [], .last .nil hfault, .inr ⟨_, rfl⟩⟩

/-- Code can be cut before each of its tokens. -/
theorem Code.split {ending : List Char → Prop} {text : List Char} {ts us : List Token}
    (h : Code ending text (ts ++ us)) :
    ∃ front back, text = front ++ back ∧ Code Ended front ts ∧ Code ending back us := by
  induction ts generalizing text with
  | nil => exact ⟨[], text, rfl, .last .nil (.inl rfl), h⟩
  | cons t ts ih =>
    cases h with
    | next gap spells hword later =>
      obtain ⟨front, back, rfl, hfront, hback⟩ := ih later
      refine ⟨_ ++ front, back, (List.append_assoc _ _ _).symm, .next gap spells ?_ hfront, hback⟩
      intro isWord c hc
      exact hword isWord c (by rw [List.head?_append, Option.mem_def.mp hc]; rfl)

end DviMarkup.PostScript
