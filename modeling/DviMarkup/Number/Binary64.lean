/-
  Floating-point numbers of 64 bits.

  The undefined number has a sign here, which no operation of `Float` shows:
  what is read keeps the sign that is written, what an operation without result
  gives is negative, and the total order has one of them before all numbers and
  the other one after them.

  * `Binary64` is the type, and its instance of `Scalar` rounds each operation
    to nearest;
  * `Binary64.spell` writes a number with the fewest digits that read back;
  * `Binary64.rank` is the place of a number in the total order.
-/
import DviMarkup.Number.Scalar
import DviMarkup.Number.Shortest

namespace DviMarkup

/-- A floating-point number. -/
inductive Binary64 where
  | number (x : Float) (defined : x.isNaN = false)
  /-- The result of an operation without result, such as `0 / 0`. -/
  | undefined (negative : Bool)

namespace Binary64

/-- The result of an operation on defined numbers. -/
def ofFloat (x : Float) : Binary64 :=
  if defined : x.isNaN = false then .number x defined else .undefined true

/-! ## Reading and writing -/

/-- The magnitude of a written number, rounded to nearest.  Numbers beyond the
    range on either side are settled before any power of ten is formed. -/
def magnitude (digits : Nat) (exponent : Int) : Float :=
  if digits = 0 ∨ exponent + digits.log2 < -400 then 0.0
  else if 310 ≤ exponent then 1.0 / 0.0
  else Float.ofScientific digits (decide (exponent < 0)) exponent.natAbs

/-- The floating-point number nearest to a written one. -/
def ofNumeral : Numeral → Binary64
  | .infinite negative => ofFloat (if negative then -(1.0 / 0.0) else 1.0 / 0.0)
  | .undefined negative => .undefined negative
  | .finite negative digits exponent =>
    ofFloat (if negative then -magnitude digits exponent else magnitude digits exponent)

/-- The magnitude of a finite number other than zero, by its mantissa and exponent. -/
def toBinary (x : Float) : Binary :=
  let bits := x.toBits.toNat % 0x8000000000000000
  let fraction := bits % 0x10000000000000
  match bits / 0x10000000000000 with
  | 0 => ⟨fraction, -1074, false⟩
  | biased => ⟨0x10000000000000 + fraction, biased - 1075, fraction = 0 && 1 < biased⟩

/-- Whether the sign of a number is negative; a zero has a sign too. -/
def isNegative (x : Float) : Bool :=
  x.toBits.toNat / 0x8000000000000000 = 1

/-- The fewest digits that read back, without an exponent and without a point
    in a whole number. -/
def spell : Binary64 → String
  | .undefined _ => "NaN"
  | .number x _ =>
    let digits :=
      if x.isInf then "inf"
      else if x == 0.0 then "0"
      else (toBinary x).shortest.positional
    if isNegative x then "-" ++ digits else digits

/-! ## Operations -/

/-- An operation on one number; the undefined number stays as it is. -/
def map (f : Float → Float) : Binary64 → Binary64
  | .number x _ => ofFloat (f x)
  | .undefined negative => .undefined negative

/-- An operation on two numbers; of two undefined numbers the first one stays. -/
def combine (f : Float → Float → Float) : Binary64 → Binary64 → Binary64
  | .number x _, .number y _ => ofFloat (f x y)
  | .undefined negative, _ | _, .undefined negative => .undefined negative

/-- A number with the other sign. -/
def negate : Binary64 → Binary64
  | .number x _ => ofFloat (-x)
  | .undefined negative => .undefined !negative

/-- A number without its sign. -/
def absolute : Binary64 → Binary64
  | .number x _ => ofFloat x.abs
  | .undefined _ => .undefined false

/-- A comparison of two numbers, which no undefined number passes. -/
def passes (test : Float → Float → Bool) : Binary64 → Binary64 → Bool
  | .number x _, .number y _ => test x y
  | _, _ => false

/-- The place of a number in the total order: by value, the negative zero
    before the positive one, and the undefined numbers at the ends. -/
def rank : Binary64 → Int
  | .undefined negative => if negative then -0x10000000000000000 else 0x10000000000000000
  | .number x _ =>
    let bits : Int := (x.toBits.toNat % 0x8000000000000000 : Nat)
    if isNegative x then -bits - 1 else bits

/-- An angle in radians, given in degrees. -/
def radians (degrees : Float) : Float :=
  degrees * 0.017453292519943295

instance : Scalar Binary64 where
  add := combine (· + ·)
  sub := combine (· - ·)
  mul := combine (· * ·)
  div := combine (· / ·)
  neg := negate
  ofNumeral := ofNumeral
  abs := absolute
  eq := passes (· == ·)
  lt := passes fun x y => x < y
  order x y := compare (rank x) (rank y)
  sinDegrees := map fun d => (radians d).sin
  cosDegrees := map fun d => (radians d).cos
  spell := spell

end Binary64

end DviMarkup
