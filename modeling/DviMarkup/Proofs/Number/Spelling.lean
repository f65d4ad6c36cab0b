/-
  The characters in which numbers are written.

  * `isNumeralChar` holds of them;
  * `isNumeralChar_positional`: digits are written with them;
  * `Binary64.isNumeralChar_markup`: so is every number inside markup;
  * `Binary64.markup_ne_nil`: no number is written with no character at all.
-/
import DviMarkup.Number.Binary64

namespace DviMarkup

/-- Whether a character can stand in a number: a digit, a sign, a point, or a letter of
    the numbers without digits. -/
def isNumeralChar (c : Char) : Bool :=
  c.isDigit || "-.infNa".toList.contains c

theorem isNumeralChar_of_mem_toDigits {c : Char} {n : Nat} (h : c ∈ Nat.toDigits 10 n) :
    isNumeralChar c = true := by
  rw [isNumeralChar, Nat.isDigit_of_mem_toDigits (by decide) (by decide) h, Bool.true_or]

theorem isNumeralChar_of_mem_replicate {c : Char} {n : Nat} (h : c ∈ List.replicate n '0') :
    isNumeralChar c = true := by
  obtain rfl := (List.mem_replicate.mp h).2
  decide

/-- Digits are written with a point at most. -/
theorem isNumeralChar_positional (d : Digits) :
    ∀ c ∈ d.positional.toList, isNumeralChar c = true := by
  intro c hc
  unfold Digits.positional at hc
  dsimp only at hc
  split at hc
  · rw [String.toList_ofList, List.mem_append] at hc
    rcases hc with hc | hc
    · exact isNumeralChar_of_mem_toDigits hc
    · exact isNumeralChar_of_mem_replicate hc
  · rename_i n _
    rw [String.toList_ofList, List.mem_append, List.mem_cons] at hc
    have padded : c ∈ List.replicate (n + 1 + 1 - (Nat.toDigits 10 d.coefficient).length) '0' ++
        Nat.toDigits 10 d.coefficient → isNumeralChar c = true := by
      intro h
      rcases List.mem_append.mp h with h | h
      · exact isNumeralChar_of_mem_replicate h
      · exact isNumeralChar_of_mem_toDigits h
    rcases hc with hc | rfl | hc
    · exact padded (List.mem_of_mem_take hc)
    · decide
    · exact padded (List.mem_of_mem_drop hc)

theorem Digits.positional_ne_nil (d : Digits) : d.positional.toList ≠ [] := by
  unfold positional
  dsimp only
  split
  · rw [String.toList_ofList]
    exact List.append_ne_nil_of_left_ne_nil Nat.toDigits_ne_nil _
  · rw [String.toList_ofList]
    exact List.append_ne_nil_of_right_ne_nil _ (List.cons_ne_nil _ _)

namespace Binary64

theorem isNumeralChar_spell (x : Binary64) : ∀ c ∈ x.spell.toList, isNumeralChar c = true := by
  cases x with
  | undefined negative =>
    have word : "NaN".toList.all isNumeralChar = true := by decide
    exact List.all_eq_true.mp word
  | number x defined =>
    have digits : ∀ c ∈ (if x.isInf then "inf" else if x == 0.0 then "0"
        else (toBinary x).shortest.positional).toList, isNumeralChar c = true := by
      split
      · exact List.all_eq_true.mp (by decide)
      · split
        · exact List.all_eq_true.mp (by decide)
        · exact isNumeralChar_positional _
    unfold spell
    dsimp only
    split
    · intro c hc
      have sign : "-".toList.all isNumeralChar = true := by decide
      rw [String.toList_append, List.mem_append] at hc
      rcases hc with hc | hc
      · exact List.all_eq_true.mp sign c hc
      · exact digits c hc
    · exact digits

/-- **Every number inside markup is written with these characters.** -/
theorem isNumeralChar_markup (x : Binary64) :
    ∀ c ∈ (Scalar.markup x).toList, isNumeralChar c = true := by
  unfold Scalar.markup
  split
  · exact List.all_eq_true.mp (by decide)
  · exact isNumeralChar_spell x

theorem spell_ne_nil (x : Binary64) : x.spell.toList ≠ [] := by
  cases x with
  | undefined negative =>
    have word : "NaN".toList ≠ [] := by decide
    exact word
  | number x defined =>
    have digits : (if x.isInf then "inf" else if x == 0.0 then "0"
        else (toBinary x).shortest.positional).toList ≠ [] := by
      split
      · decide
      · split
        · decide
        · exact Digits.positional_ne_nil _
    unfold spell
    dsimp only
    split
    · rw [String.toList_append]
      exact List.append_ne_nil_of_right_ne_nil _ digits
    · exact digits

/-- No number inside markup is left out. -/
theorem markup_ne_nil (x : Binary64) : (Scalar.markup x).toList ≠ [] := by
  unfold Scalar.markup
  split
  · decide
  · exact spell_ne_nil x

end Binary64

end DviMarkup
