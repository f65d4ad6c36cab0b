/-
  The numbers that positions, transforms and sizes are computed with.

  Every computation is written once over the class `Scalar`, so that it can be
  run on floating-point numbers and reasoned about on exact ones: the class
  fixes the operations and their order, not how they round.

  * `Scalar` lists the operations;
  * `Scalar.markup` is the spelling of a number inside markup.
-/
import DviMarkup.Number.Numeral

namespace DviMarkup

/-- A type of numbers to compute with. -/
class Scalar (α : Type) extends Add α, Sub α, Mul α, Div α, Neg α where
  /-- The number nearest to a written one. -/
  ofNumeral : Numeral → α
  abs : α → α
  /-- Whether two numbers are equal as numbers. -/
  eq : α → α → Bool
  /-- Whether the first number is less than the second. -/
  lt : α → α → Bool
  /-- A total order of all values, also of those that `lt` does not order. -/
  order : α → α → Ordering
  /-- The sine of an angle in degrees. -/
  sinDegrees : α → α
  /-- The cosine of an angle in degrees. -/
  cosDegrees : α → α
  /-- The spelling of a number. -/
  spell : α → String

namespace Scalar

variable {α : Type} [Scalar α]

/-- A whole number. -/
def ofInt (n : Int) : α :=
  ofNumeral (.ofInt n)

/-- A number with the given count of digits after the point. -/
def ofPlaces (digits places : Nat) : α :=
  ofNumeral (.ofPlaces digits places)

def zero : α := ofInt 0
def one : α := ofInt 1

/-- The spelling of a number inside markup, where a zero has no sign. -/
def markup (x : α) : String :=
  if eq x zero then "0" else spell x

end Scalar

end DviMarkup
