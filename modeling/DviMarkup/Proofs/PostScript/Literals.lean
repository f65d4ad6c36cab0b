/-
  Literals: code that puts objects on the stack.

  * `Literals` are the texts that spell objects in order, with gaps between them; arrays are
    spelled by their elements, which may be arrays themselves;
  * `Puts` are the tokens for objects, and `Literals.exists_puts`: literals are scanned as
    such tokens, whatever comes after them;
  * `Puts.run`: the tokens put the objects on the stack;
  * `run_literal`: what spells an object puts this object on the stack and does nothing else.
-/
import DviMarkup.Proofs.PostScript.InTurn
import DviMarkup.Proofs.PostScript.Operands
import DviMarkup.Proofs.PostScript.Scanning

namespace DviMarkup.PostScript

open Session

variable {α : Type} [Scalar α]

/-! ## Spellings of objects -/

/-- The object that a token is, if it is one. -/
def Token.object? : Token → Option (Object α)
  | .number value => some (.number (Scalar.ofNumeral value))
  | .string text => some (.string text)
  | .procedure text => some (.procedure text)
  | .name text => some (.name text)
  | _ => none

/-- The texts that spell objects in order, with gaps between them. -/
inductive Literals : List (Object α) → List Char → Prop
  | nil : Literals [] []
  | gap {gap os text} : Gap gap → Literals os text → Literals os (gap ++ text)
  | token {word t o os text} : Spells word t → t.object? = some o →
      (t.isWord = true → AtEnd text) → Literals os text → Literals (o :: os) (word ++ text)
  | array {elements inner os text} : Literals elements inner → Literals os text →
      Literals (.array elements :: os) (['['] ++ inner ++ [']'] ++ text)

/-- Tokens that put objects on the stack. -/
inductive Puts : List Token → List (Object α) → Prop
  | nil : Puts [] []
  | token {t o ts os} : t.object? = some o → Puts ts os → Puts (t :: ts) (o :: os)
  | array {us elements ts os} : Puts us elements → Puts ts os →
      Puts (.arrayStart :: (us ++ .arrayEnd :: ts)) (.array elements :: os)

theorem AtEnd.append {a b : List Char} (ha : AtEnd a) (hb : AtEnd b) : AtEnd (a ++ b) := by
  cases a with
  | nil => exact hb
  | cons c a => exact ha

/-- Literals are scanned as tokens that put the objects on the stack, whatever comes after
    them. -/
theorem Literals.exists_puts {os : List (Object α)} {text : List Char} (h : Literals os text) :
    ∃ ts, Puts ts os ∧ ∀ rest, AtEnd rest →
      tokensOf (bytes (text ++ rest)) = ts.map .ok ++ tokensOf (bytes rest) := by
  induction h with
  | nil => exact ⟨[], .nil, fun _ _ => rfl⟩
  | gap hgap _ ih =>
    obtain ⟨ts, puts, scanned⟩ := ih
    refine ⟨ts, puts, fun rest hrest => ?_⟩
    rw [List.append_assoc, bytes_append, tokensOf_gap hgap, scanned rest hrest]
  | @token word t o os text spells object stops _ ih =>
    obtain ⟨ts, puts, scanned⟩ := ih
    refine ⟨t :: ts, .token object puts, fun rest hrest => ?_⟩
    rw [List.append_assoc, tokensOf_spells spells fun isWord => (stops isWord).append hrest,
      scanned rest hrest]
    rfl
  | @array elements inner os text _ _ ihInner ih =>
    obtain ⟨us, putsInner, scannedInner⟩ := ihInner
    obtain ⟨ts, puts, scanned⟩ := ih
    refine ⟨_, .array putsInner puts, fun rest hrest => ?_⟩
    have stop : AtEnd ([']'] ++ (text ++ rest)) := by
      rintro _ ⟨⟩
      rfl
    have split : ['['] ++ inner ++ [']'] ++ text ++ rest =
        ['['] ++ (inner ++ ([']'] ++ (text ++ rest))) := by
      simp only [List.append_assoc]
    rw [split, tokensOf_spells .arrayStart nofun, scannedInner _ stop,
      tokensOf_spells .arrayEnd nofun, scanned rest hrest, List.map_cons, List.map_append,
      List.map_cons, List.cons_append, List.append_assoc, List.cons_append]

/-! ## Steps -/

theorem run_runTokens_cons {t : Token} {later : List (Except Fault Token)} {s s' : Session α}
    (h : (Session.token t).run.run s = (.ok (), s')) :
    (runTokens (.ok t :: later)).run.run s = (runTokens later).run.run s' := by
  rw [runTokens, run_bind, h]

theorem run_runTokens_append {ts us : List (Except Fault Token)} {s s' : Session α}
    (h : (runTokens ts).run.run s = (.ok (), s')) :
    (runTokens (ts ++ us)).run.run s = (runTokens us).run.run s' := by
  rw [runTokens_append, run_bind, h]

theorem token_of_object? {t : Token} {o : Object α} (h : t.object? = some o) :
    Session.token t = push o := by
  cases t <;> cases h <;> rfl

namespace Puts

variable {ts : List Token} {os : List (Object α)}

/-- No mark is put as an object. -/
theorem mark_notMem (h : Puts ts os) : .mark ∉ os := by
  induction h with
  | nil => exact List.not_mem_nil
  | @token t o ts os object _ ih =>
    refine List.not_mem_cons_of_ne_of_not_mem ?_ ih
    cases t <;> cases object <;> exact nofun
  | array _ _ _ ih => exact List.not_mem_cons_of_ne_of_not_mem nofun ih

/-- The tokens put the objects on the stack, whatever is there before. -/
theorem run (h : Puts ts os) (s : Session α) :
    (runTokens (ts.map .ok)).run.run s = (.ok (), { s with stack := os.reverse ++ s.stack }) := by
  induction h generalizing s with
  | nil => rfl
  | @token t o ts os object _ ih =>
    have step : (Session.token t).run.run s = (.ok (), { s with stack := o :: s.stack }) := by
      rw [token_of_object? object]
      rfl
    rw [List.map_cons, run_runTokens_cons step, ih, List.reverse_cons, List.append_assoc]
    rfl
  | @array us elements ts os inner _ ihInner ih =>
    -- the elements come above the mark, and then the end of the array takes both
    have unmarked : .mark ∉ elements.reverse := fun h =>
      inner.mark_notMem (List.mem_reverse.mp h)
    have start : (Session.token .arrayStart).run.run s =
        (.ok (), { s with stack := .mark :: s.stack }) := rfl
    have stop : (Session.token .arrayEnd).run.run
          { s with stack := elements.reverse ++ .mark :: s.stack } =
        (.ok (), { s with stack := .array elements :: s.stack }) := by
      refine (run_closeArray unmarked s.stack s.typesetter).trans ?_
      rw [List.reverse_reverse]
    rw [List.map_cons, List.map_append, List.map_cons, run_runTokens_cons start,
      run_runTokens_append (ihInner _), run_runTokens_cons stop, ih, List.reverse_cons,
      List.append_assoc]
    rfl

end Puts

/-- **Literals evaluate to themselves.**  What spells an object puts this object on the stack
    and changes nothing else, whatever is on the stack and whatever the typesetter is. -/
theorem run_literal {o : Object α} {code : String} (h : Literals [o] code.toList)
    (s : Session α) :
    (Session.run code).run.run s = (.ok (), { s with stack := o :: s.stack }) := by
  obtain ⟨ts, puts, scanned⟩ := h.exists_puts
  have whole := scanned [] nofun
  rw [List.append_nil, ← encode_eq_bytes, ← tokens_eq, bytes_nil, tokensOf_nil,
    List.append_nil] at whole
  rw [Session.run, whole, puts.run]
  rfl

/-- Arrays in an array, with delimiters that need no blanks and others that stand for
    themselves. -/
def nestedCode : String := "[-.5[(a(\\)))]\t/b\\ {]}% c\n[]]"

/-- The number in it. -/
def minusHalf : Decimal := ⟨some true, [], some ['5'], by simp [Numeral.isDigit], by decide⟩

/-- The object that it spells. -/
def nestedObject : Object Binary64 :=
  .array [.number (Scalar.ofNumeral minusHalf.value), .array [.string "a(\\))"], .name "b\\ ",
    .procedure "]", .array []]

/-- The object comes on top of a stack with marks. -/
theorem run_literal_nested :
    Literals [nestedObject] nestedCode.toList ∧
      (Session.run nestedCode).run.run ⟨[.mark, .name "a", .mark], .silent (.ofList [])⟩ =
        (.ok (), ⟨[nestedObject, .mark, .name "a", .mark], .silent (.ofList [])⟩) := by
  have literal : Literals [nestedObject] nestedCode.toList := by
    have empty : Literals ([.array []] : List (Object Binary64)) ['[', ']'] := .array .nil .nil
    have procedure := Literals.token (@Spells.enclosed .procedure [']'] (by decide))
      rfl (by decide) (.gap (@Gap.comment [' ', 'c'] '\n' _ (by simp [endsComment]) rfl .nil) empty)
    have name := Literals.token (@Spells.name ['b', '\\', ' '] (by decide)) rfl (by decide)
      procedure
    have string : Literals ([.string _] : List (Object Binary64)) _ :=
      .token (@Spells.enclosed .string ['a', '(', '\\', ')', ')'] (by decide)) rfl (by decide) .nil
    have inner := Literals.array string (.gap (.space (c := '\t') rfl .nil) name)
    have number := Literals.token (.number minusHalf) rfl (by decide) inner
    exact .array number .nil
  exact ⟨literal, run_literal literal _⟩

end DviMarkup.PostScript
