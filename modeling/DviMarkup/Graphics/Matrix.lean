/-
  Affine transforms of the plane.

  The matrix with the values `a b c d e f` maps the point `(x, y)` to
  `(a x + c y + e, b x + d y + f)`.  Every operation multiplies the
  elementary matrix on from the right, so the operation applied last acts first
  on a point.

  * `Matrix.multiply` and `Matrix.apply` are product and action;
  * `scale`, `translate` and `rotate` multiply an elementary matrix on;
  * `Matrix.svgAttribute` is the transform as an attribute of an element.
-/
import DviMarkup.Number.Scalar

namespace DviMarkup

/-- An affine transform. -/
structure Matrix (α : Type) where
  a : α
  b : α
  c : α
  d : α
  e : α
  f : α
deriving Repr, DecidableEq

namespace Matrix

open Scalar

variable {α : Type} [Scalar α]

/-- The values in order. -/
def toList (m : Matrix α) : List α := [m.a, m.b, m.c, m.d, m.e, m.f]

/-- The transform that leaves every point in place. -/
def identity : Matrix α := ⟨one, zero, zero, one, zero, zero⟩

/-- The distance between one and the next floating-point number. -/
def epsilon : α := one / ofInt 0x10000000000000

/-- Whether two values differ by less than the least visible amount. -/
def close (x y : α) : Bool := lt (abs (x - y)) epsilon

/-- Whether the transform is the identity up to the least visible amount. -/
def isIdentity (m : Matrix α) : Bool :=
  close m.a one && close m.b zero && close m.c zero && close m.d one && close m.e zero &&
    close m.f zero

/-- The product: first `n`, then `m`. -/
def multiply (m n : Matrix α) : Matrix α where
  a := m.a * n.a + m.c * n.b
  b := m.b * n.a + m.d * n.b
  c := m.a * n.c + m.c * n.d
  d := m.b * n.c + m.d * n.d
  e := m.a * n.e + m.c * n.f + m.e
  f := m.b * n.e + m.d * n.f + m.f

/-- Scales the axes. -/
def scale (m : Matrix α) (x y : α) : Matrix α :=
  { m with a := m.a * x, b := m.b * x, c := m.c * y, d := m.d * y }

/-- Moves the origin. -/
def translate (m : Matrix α) (x y : α) : Matrix α :=
  { m with e := m.a * x + m.c * y + m.e, f := m.b * x + m.d * y + m.f }

/-- Rotates by an angle in degrees. -/
def rotate (m : Matrix α) (degrees : α) : Matrix α :=
  let sin := sinDegrees degrees
  let cos := cosDegrees degrees
  { m with
    a := m.a * cos + m.c * sin
    b := m.b * cos + m.d * sin
    c := m.c * cos - m.a * sin
    d := m.d * cos - m.b * sin }

/-- The image of a point. -/
def apply (m : Matrix α) (x y : α) : α × α :=
  (m.a * x + m.c * y + m.e, m.b * x + m.d * y + m.f)

/-- The transform as an attribute with a blank before it; the identity needs none. -/
def svgAttribute (m : Matrix α) : String :=
  if m.isIdentity then ""
  else " transform=\"matrix(" ++ " ".intercalate (m.toList.map markup) ++ ")\""

/-- The values between brackets. -/
def describe (m : Matrix α) : String :=
  "[" ++ ",".intercalate (m.toList.map markup) ++ "]"

end Matrix

end DviMarkup
