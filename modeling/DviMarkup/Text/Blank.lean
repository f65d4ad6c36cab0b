/-
  White space between words, and the cutting of texts at it.

  * `isBlank` holds of the characters with the property White_Space;
  * `trimStart`, `trim` and `words` cut a text at blanks;
  * `splitAt` cuts a text at every occurrence of one character, so that it has
    one part more than occurrences.
-/

namespace DviMarkup.Text

/-- Whether a character is white space. -/
def isBlank (c : Char) : Bool :=
  let n := c.toNat
  (0x09 ≤ n && n ≤ 0x0D) || n = 0x20 || n = 0x85 || n = 0xA0 || n = 0x1680 ||
    (0x2000 ≤ n && n ≤ 0x200A) || n = 0x2028 || n = 0x2029 || n = 0x202F || n = 0x205F ||
    n = 0x3000

/-- The text without the blanks before it. -/
def trimStart (s : List Char) : List Char :=
  s.dropWhile isBlank

/-- The text without the blanks after it. -/
def trimEnd (s : List Char) : List Char :=
  (s.reverse.dropWhile isBlank).reverse

/-- The text without the blanks around it. -/
def trim (s : List Char) : List Char :=
  trimEnd (trimStart s)

/-- The parts of a text between the characters that satisfy `p`. -/
def splitOnP (p : Char → Bool) : List Char → List (List Char)
  | [] => [[]]
  | c :: rest =>
    match splitOnP p rest with
    | [] => [[c]]
    | part :: parts => if p c then [] :: part :: parts else (c :: part) :: parts

/-- The parts of a text between the occurrences of a character. -/
def splitAt (sep : Char) (s : List Char) : List (List Char) :=
  splitOnP (· == sep) s

/-- The longest blank-free stretches of a text, in order. -/
def words (s : List Char) : List (List Char) :=
  (splitOnP isBlank s).filter (!·.isEmpty)

/-- A stretch of characters with a property ends where one without it comes. -/
theorem takeWhile_dropWhile_append {p : Char → Bool} {stretch : List Char}
    (h : ∀ c ∈ stretch, p c = true) (rest : List Char) (stop : ∀ c ∈ rest.head?, p c = false) :
    (stretch ++ rest).takeWhile p = stretch ∧ (stretch ++ rest).dropWhile p = rest := by
  rw [List.takeWhile_append_of_pos h, List.dropWhile_append_of_pos h]
  cases rest with
  | nil => exact ⟨by rw [List.takeWhile_nil, List.append_nil], rfl⟩
  | cons c rest =>
    have hc := stop c rfl
    exact ⟨by rw [List.takeWhile_cons_of_neg (Bool.eq_false_iff.mp hc), List.append_nil],
      List.dropWhile_cons_of_neg (Bool.eq_false_iff.mp hc)⟩

/-- The text without a given ending, if it has it. -/
def dropEnding? (ending s : List Char) : Option (List Char) :=
  (ending.reverse.isPrefixOf? s.reverse).map List.reverse

/-- The text with every occurrence of `first :: rest` replaced, from left to
    right and without looking into what was put in. -/
def replaceAll (first : Char) (rest new : List Char) : List Char → List Char
  | [] => []
  | c :: s =>
    if c = first ∧ rest.isPrefixOf s then new ++ replaceAll first rest new (s.drop rest.length)
    else c :: replaceAll first rest new s
termination_by s => s.length
decreasing_by
  all_goals
    simp only [List.length_drop, List.length_cons]
    omega

end DviMarkup.Text
