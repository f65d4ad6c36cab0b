/-
  How descriptions of images are read.

  A description is read entry by entry, up to its end.  The entries are those that were written,
  whatever stands in the quotes, and however much stands between them.

  * `Table.lookup_ofPairs` and `Table.nodup_ofPairs`: a table has each key once, with the value
    of its last pair;
  * `Attribute` is a key with the form of its value, and `Rendered` holds of the texts in which
    attributes are written in order;
  * `Attribute.entry_text`: an attribute at the front of a text is read as its entry, and
    `entries_of_rendered`: so are attributes in order;
  * `left` is what is left of a text after rounds of reading, and `exists_rounds`: every round
    uses something up, until nothing is left;
  * `attributes_of_rendered`: a description has the values that were written last.
-/
import DviMarkup.Typesetter.Image
import Mathlib.Data.List.Induction
import Mathlib.Logic.Function.Iterate

namespace DviMarkup

/-! ## Tables of pairs -/

namespace Table

variable {κ β : Type} [BEq κ] [LawfulBEq κ]

theorem lookup_assign (k key : κ) (value : β) (table : List (κ × β)) :
    (assign key value table).lookup k = if key == k then some value else table.lookup k := by
  induction table with
  | nil =>
    rw [assign, List.lookup_cons, BEq.comm]
    cases key == k <;> rfl
  | cons p table ih =>
    rw [assign]
    by_cases same : key == p.1
    · rw [if_pos same, List.lookup_cons, List.lookup_cons, ← eq_of_beq same, BEq.comm]
      cases key == k <;> rfl
    · rw [if_neg same, List.lookup_cons, List.lookup_cons, ih]
      by_cases found : k == p.1
      · rw [eq_of_beq found, if_neg same, if_neg same]
      · rw [Bool.eq_false_iff.mpr found]

theorem keys_assign (key : κ) (value : β) (table : List (κ × β)) :
    (assign key value table).map Prod.fst =
      if key ∈ table.map Prod.fst then table.map Prod.fst else table.map Prod.fst ++ [key] := by
  induction table with
  | nil => rfl
  | cons p table ih =>
    rw [assign]
    split
    · rename_i same
      simp [eq_of_beq same]
    · rename_i other
      have ne : key ≠ p.1 := fun h => other (beq_iff_eq.mpr h)
      simp only [List.map_cons, ih, List.mem_cons, ne, false_or]
      split <;> rfl

omit [LawfulBEq κ] in
theorem ofPairs_append_singleton (pairs : List (κ × β)) (p : κ × β) :
    ofPairs (pairs ++ [p]) = assign p.1 p.2 (ofPairs pairs) :=
  List.foldl_append

/-- The value of a key is that of the last pair with it. -/
theorem lookup_ofPairs (k : κ) (pairs : List (κ × β)) :
    (ofPairs pairs).lookup k = (pairs.filter (·.1 == k)).getLast?.map Prod.snd := by
  induction pairs using List.reverseRecOn with
  | nil => rfl
  | append_singleton pairs p ih =>
    rw [ofPairs_append_singleton, lookup_assign, ih, List.filter_append]
    cases h : p.1 == k with
    | false => simp [h]
    | true => simp [h]

theorem nodup_ofPairs (pairs : List (κ × β)) : ((ofPairs pairs).map Prod.fst).Nodup := by
  induction pairs using List.reverseRecOn with
  | nil => exact List.nodup_nil
  | append_singleton pairs p ih =>
    rw [ofPairs_append_singleton, keys_assign]
    split
    · exact ih
    · rename_i new
      refine List.nodup_append.mpr ⟨ih, List.nodup_cons.mpr ⟨List.not_mem_nil, List.nodup_nil⟩, ?_⟩
      intro k hk key hkey same
      rw [List.mem_singleton.mp hkey] at same
      exact new (same ▸ hk)

end Table

namespace Image

open Text

/-! ## Attributes as they are written -/

/-- How the value of a key is written. -/
inductive Form where
  /-- Not at all. -/
  | flag
  /-- After an equals sign, up to the next blank. -/
  | bare (value : List Char) (plain : value.all (!isBlank ·) := by decide)
      (unquoted : '"' ∉ value.head? := by decide)
  /-- Between quotes. -/
  | quoted (value : List Char) (plain : '"' ∉ value := by decide)

/-- The value; a key without one has the empty value. -/
def Form.value : Form → List Char
  | flag => []
  | bare value _ _ | quoted value _ => value

/-- What is written after the key. -/
def Form.text : Form → List Char
  | flag => []
  | bare value _ _ => '=' :: value
  | quoted value _ => '=' :: '"' :: (value ++ ['"'])

/-- A key with the form of its value. -/
structure Attribute where
  key : List Char
  form : Form
  key_ne_nil : key ≠ [] := by decide
  plain : key.all (fun c => !(c = '=' || isBlank c)) := by decide

namespace Attribute

/-- The key in small letters. -/
def name (a : Attribute) : List Char := a.key.map Char.toLower

def value (a : Attribute) : List Char := a.form.value

/-- How an attribute is written. -/
def text (a : Attribute) : List Char := a.key ++ a.form.text

end Attribute

/-- Whether a text is attributes in order, with blanks after each but the last. -/
inductive Rendered : List Attribute → List Char → Prop
  | nil : Rendered [] []
  | last (a : Attribute) : Rendered [a] a.text
  | next (a : Attribute) (gap : List Char) {as text} : gap ≠ [] → gap.all isBlank →
      Rendered as text → Rendered (a :: as) (a.text ++ (gap ++ text))

/-! ## Reading an entry -/

theorem value_of_ne {s : List Char} (h : '=' ∉ s.head?) : value s = ([], s) := by
  unfold value
  split
  · exact absurd rfl h
  · exact absurd rfl h
  · rfl

theorem value_bare {s : List Char} (h : '"' ∉ s.head?) :
    value ('=' :: s) = (s.takeWhile (!isBlank ·), s.dropWhile (!isBlank ·)) := by
  unfold value
  split
  · rename_i heq
    cases heq
    exact absurd rfl h
  · rename_i heq
    cases heq
    rfl
  · rename_i other
    exact absurd rfl (other s)

/-- A value is read to its end, which a blank or the end of the text tells. -/
theorem value_text (f : Form) {rest : List Char} (stop : ∀ c ∈ rest.head?, isBlank c = true) :
    value (f.text ++ rest) = (f.value, rest) := by
  cases f with
  | flag => exact value_of_ne fun h => nomatch stop _ h
  | bare v plain unquoted =>
    have first : '"' ∉ (v ++ rest).head? := by
      rw [List.head?_append]
      cases v with
      | nil => exact fun h => nomatch stop _ h
      | cons c v => exact unquoted
    obtain ⟨front, back⟩ := takeWhile_dropWhile_append (p := (!isBlank ·))
      (List.all_eq_true.mp plain) rest fun c hc => by simp [stop c hc]
    refine (value_bare first).trans ?_
    rw [front, back]
    rfl
  | quoted v plain =>
    obtain ⟨front, back⟩ := takeWhile_dropWhile_append (p := (· ≠ '"'))
      (fun c hc => decide_eq_true (ne_of_mem_of_not_mem hc plain)) ('"' :: rest) (by
        rintro c ⟨⟩
        rfl)
    have text : (Form.quoted v plain).text ++ rest = '=' :: '"' :: (v ++ '"' :: rest) := by
      simp [Form.text]
    rw [text, value, front, back]
    rfl

/-- **An attribute at the front of a text is read as its name and its value.** -/
theorem Attribute.entry_text (a : Attribute) {rest : List Char}
    (stop : ∀ c ∈ rest.head?, isBlank c = true) :
    entry (a.text ++ rest) = ((a.name, a.value), trimStart rest) := by
  have key : ∀ c ∈ a.key, isKeyChar c = true := List.all_eq_true.mp a.plain
  have ends : ∀ c ∈ (a.form.text ++ rest).head?, isKeyChar c = false := by
    rw [List.head?_append]
    intro c hc
    cases h : a.form with
    | flag =>
      rw [h] at hc
      simp [isKeyChar, stop c hc]
    | bare v plain unquoted =>
      rw [h] at hc
      cases hc
      rfl
    | quoted v plain =>
      rw [h] at hc
      cases hc
      rfl
  obtain ⟨front, back⟩ := takeWhile_dropWhile_append key _ ends
  unfold entry
  rw [text, List.append_assoc, front, back, value_text _ stop]
  rfl

/-! ## Reading attributes in order -/

/-- Whether a text does not begin with a blank. -/
def Trimmed (s : List Char) : Prop := ∀ c ∈ s.head?, isBlank c = false

theorem trimmed_trimStart (s : List Char) : Trimmed (trimStart s) := by
  intro c hc
  have first := List.head?_dropWhile_not isBlank s
  rw [trimStart, Option.mem_def] at hc
  rwa [hc] at first

theorem Trimmed.trimStart_eq {s : List Char} (h : Trimmed s) : trimStart s = s := by
  cases s with
  | nil => rfl
  | cons c s => exact List.dropWhile_cons_of_neg (Bool.eq_false_iff.mp (h c rfl))

/-- A text that does not begin with a blank is read entry by entry. -/
theorem entries_eq {s : List Char} (h : Trimmed s) (nonempty : s ≠ []) :
    entries s = (entry s).1 :: entries (entry s).2 := by
  cases s with
  | nil => exact absurd rfl nonempty
  | cons c s =>
    rw [entries.eq_def]
    exact dif_neg (Bool.eq_false_iff.mp (h c rfl))

theorem entries_nil : entries [] = [] := by
  rw [entries.eq_def]

theorem Attribute.trimmed_text (a : Attribute) (rest : List Char) : Trimmed (a.text ++ rest) := by
  obtain ⟨c, key, hkey⟩ := List.exists_cons_of_ne_nil a.key_ne_nil
  have hc : isBlank c = false := by
    have first := List.all_eq_true.mp a.plain c (hkey ▸ List.mem_cons_self)
    simp only [Bool.not_eq_true', Bool.or_eq_false_iff] at first
    exact first.2
  rw [text, hkey]
  rintro _ ⟨⟩
  exact hc

theorem Attribute.text_ne_nil (a : Attribute) : a.text ≠ [] :=
  List.append_ne_nil_of_left_ne_nil a.key_ne_nil _

theorem Rendered.trimmed {as : List Attribute} {text : List Char} (h : Rendered as text) :
    Trimmed text := by
  cases h with
  | nil => exact nofun
  | last a => exact List.append_nil a.text ▸ a.trimmed_text []
  | next a gap => exact a.trimmed_text _

/-- **Attributes in order are read as their names and values.** -/
theorem entries_of_rendered {as : List Attribute} {text : List Char} (h : Rendered as text) :
    entries text = as.map fun a => (a.name, a.value) := by
  induction h with
  | nil => exact entries_nil
  | last a =>
    have read := @Attribute.entry_text a [] nofun
    rw [List.append_nil] at read
    rw [entries_eq (Rendered.last a).trimmed a.text_ne_nil, read, trimStart, List.dropWhile_nil,
      entries_nil]
    rfl
  | @next a gap as text nonempty blank h ih =>
    have stop : ∀ c ∈ (gap ++ text).head?, isBlank c = true := by
      obtain ⟨c, gap, rfl⟩ := List.exists_cons_of_ne_nil nonempty
      rintro _ ⟨⟩
      exact List.all_eq_true.mp blank c List.mem_cons_self
    have later : trimStart (gap ++ text) = text := by
      rw [trimStart, List.dropWhile_append_of_pos (List.all_eq_true.mp blank)]
      exact h.trimmed.trimStart_eq
    rw [entries_eq (a.trimmed_text _) (List.append_ne_nil_of_left_ne_nil a.text_ne_nil _),
      a.entry_text stop, later, ih]
    rfl

/-! ## Rounds -/

/-- What is left of a description after rounds of reading. -/
def left (description : List Char) (rounds : Nat) : List Char :=
  (fun s => (entry s).2)^[rounds] (trimStart description)

theorem value_isSuffix (s : List Char) : (value s).2 <:+ s := by
  unfold value
  split
  · exact (List.drop_suffix _ _).trans ((List.dropWhile_suffix _).trans
      ((List.suffix_cons _ _).trans (List.suffix_cons _ _)))
  · exact (List.dropWhile_suffix _).trans (List.suffix_cons _ _)
  · exact List.suffix_refl _

theorem entry_isSuffix (s : List Char) : (entry s).2 <:+ s :=
  (List.dropWhile_suffix _).trans ((value_isSuffix _).trans (List.dropWhile_suffix _))

/-- **Every round uses something up**, until nothing is left. -/
theorem exists_rounds {s : List Char} (h : Trimmed s) :
    let next := fun s => (entry s).2
    ∃ n ≤ s.length, next^[n] s = [] ∧
      (∀ k < n, next^[k + 1] s <:+ next^[k] s ∧ (next^[k + 1] s).length < (next^[k] s).length) ∧
      entries s = (List.range n).map fun k => (entry (next^[k] s)).1 := by
  intro next
  induction hs : s.length using Nat.strongRecOn generalizing s with
  | ind length ih =>
    cases s with
    | nil => exact ⟨0, Nat.zero_le _, rfl, nofun, entries_nil⟩
    | cons c s =>
      have shorter : (next (c :: s)).length < length := by
        rw [← hs]
        exact length_entry_lt c s (h c rfl)
      obtain ⟨n, bound, done, uses, read⟩ := ih _ shorter (trimmed_trimStart _) rfl
      refine ⟨n + 1, Nat.succ_le_of_lt (Nat.lt_of_le_of_lt bound shorter), done, ?_, ?_⟩
      · intro k hk
        cases k with
        | zero => exact ⟨entry_isSuffix _, hs ▸ shorter⟩
        | succ k => exact uses k (Nat.lt_of_succ_lt_succ hk)
      · rw [entries_eq h (List.cons_ne_nil c s), List.range_succ_eq_map, List.map_cons,
          List.map_map]
        exact congrArg _ read

/-- **A description has the values that were written last**, each for its key in small letters;
    a key without a value has the empty one.  And every description is read to its end in
    rounds, each of which uses up a character at least. -/
theorem attributes_of_rendered {as : List Attribute} {text : List Char} (h : Rendered as text)
    (description : List Char) :
    ((attributes text).map Prod.fst).Nodup ∧
      (∀ name, (attributes text).lookup name =
        (as.filter (·.name == name)).getLast?.map Attribute.value) ∧
      ∃ n ≤ description.length, left description n = [] ∧
        (∀ k < n, left description (k + 1) <:+ left description k ∧
          (left description (k + 1)).length < (left description k).length) ∧
        attributes description =
          Table.ofPairs ((List.range n).map fun k => (entry (left description k)).1) := by
  refine ⟨Table.nodup_ofPairs _, fun name => ?_, ?_⟩
  · rw [attributes, h.trimmed.trimStart_eq, entries_of_rendered h, Table.lookup_ofPairs,
      List.filter_map, List.getLast?_map, Option.map_map]
    rfl
  · obtain ⟨n, bound, done, uses, read⟩ := exists_rounds (trimmed_trimStart description)
    exact ⟨n, Nat.le_trans bound (length_dropWhile_le _ _), done, uses,
      congrArg Table.ofPairs read⟩

/-- The file of a figure, its left side twice, and a key without a value. -/
def movedFigure : List Attribute :=
  [{ key := "PSfile".toList, form := .quoted "my figure.eps".toList },
    { key := "llx".toList, form := .bare "1".toList },
    { key := "LLX".toList, form := .bare "2.5".toList }, { key := "flag".toList, form := .flag }]

/-- Of the two left sides the second is read, and a text with stray equals signs and a quote that
    is not closed is read to its end too. -/
theorem attributes_of_rendered_movedFigure :
    let text := "PSfile=\"my figure.eps\" llx=1\u2003LLX=2.5  flag".toList
    Rendered movedFigure text ∧
      (attributes text).lookup "llx".toList = some "2.5".toList ∧
      (attributes text).lookup "psfile".toList = some "my figure.eps".toList ∧
      (attributes text).lookup "flag".toList = some [] ∧
      ∃ n ≤ 7, left " ==\"a b".toList n = [] ∧
        ∀ k < n, (left " ==\"a b".toList (k + 1)).length < (left " ==\"a b".toList k).length := by
  intro text
  have rendered : Rendered movedFigure text :=
    .next _ " ".toList (by decide) (by decide) <|
      .next _ "\u2003".toList (by decide) (by decide) <|
        .next _ "  ".toList (by decide) (by decide) <| .last _
  obtain ⟨-, values, n, bound, done, uses, -⟩ := attributes_of_rendered rendered " ==\"a b".toList
  exact ⟨rendered, (values _).trans (by decide +kernel), (values _).trans (by decide +kernel),
    (values _).trans (by decide +kernel), n, bound, done, fun k hk => (uses k hk).2⟩

end Image

end DviMarkup
