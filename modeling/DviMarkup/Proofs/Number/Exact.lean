/-
  Exact numbers.

  Everything is computed with a type of numbers that is left open.  With rational numbers
  nothing is rounded, and what comes out can be told from the formula.

  * `Completion` is what rational numbers have no answer for: infinities, sines, cosines
    and spellings, whatever these may be;
  * `Numeral.value` is the number that a numeral writes;
  * the rational numbers are `Scalar`, with their own operations;
  * `Scalar.ofInt_rat` and `Scalar.ofPlaces_rat`: written numbers are what they say.
-/
import DviMarkup.Number.Scalar
import Mathlib.Algebra.Order.Field.Rat
import Mathlib.Data.Int.Cast.Lemmas
import Mathlib.Algebra.Order.Ring.Int
import Mathlib.Tactic.Ring

namespace DviMarkup

/-- What rational numbers have no answer for. -/
class Completion where
  /-- What stands for an infinity. -/
  infinite : (negative : Bool) → ℚ
  /-- What stands for the undefined number. -/
  undefined : (negative : Bool) → ℚ
  /-- The sine of an angle in degrees. -/
  sine : ℚ → ℚ
  /-- The cosine of an angle in degrees. -/
  cosine : ℚ → ℚ
  /-- The spelling of a number. -/
  spell : ℚ → String

/-- No answers. -/
@[reducible] def Completion.blank : Completion where
  infinite _ := 0
  undefined _ := 0
  sine _ := 0
  cosine _ := 0
  spell _ := ""

variable [Completion]

/-- The number that a numeral writes. -/
def Numeral.value : Numeral → ℚ
  | finite negative digits exponent =>
    (if negative then -(digits : ℚ) else digits) * 10 ^ exponent
  | infinite negative => Completion.infinite negative
  | undefined negative => Completion.undefined negative

instance : Scalar ℚ where
  ofNumeral := Numeral.value
  abs x := |x|
  eq x y := x = y
  lt x y := x < y
  order := compare
  sinDegrees := Completion.sine
  cosDegrees := Completion.cosine
  spell := Completion.spell

namespace Scalar

@[simp] theorem ofInt_rat (n : Int) : (ofInt n : ℚ) = n := by
  rcases lt_or_ge n 0 with h | h
  · have abs : ((n.natAbs : ℕ) : ℚ) = -n := by
      rw [Nat.cast_natAbs, abs_of_neg h, Int.cast_neg]
    simp [ofInt, ofNumeral, Numeral.ofInt, Numeral.value, h, abs]
  · have abs : ((n.natAbs : ℕ) : ℚ) = n := by
      rw [Nat.cast_natAbs, abs_of_nonneg h]
    simp [ofInt, ofNumeral, Numeral.ofInt, Numeral.value, not_lt.mpr h, abs]

@[simp] theorem ofPlaces_rat (digits places : Nat) :
    (ofPlaces digits places : ℚ) = digits / 10 ^ places := by
  simp [ofPlaces, ofNumeral, Numeral.ofPlaces, Numeral.value, div_eq_mul_inv]

@[simp] theorem zero_rat : (zero : ℚ) = 0 := by
  rw [zero, ofInt_rat, Int.cast_zero]

end Scalar

end DviMarkup
