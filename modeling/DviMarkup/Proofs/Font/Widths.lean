/-
  The widths of texts in exact numbers.

  * `Font.textWidth?` is the sum of the widths of the characters in units of the
    metrics, which are whole numbers;
  * `Font.measure_width`: a text can be measured exactly if it has this sum, and then
    that is its width;
  * `Font.textWidth?_append`: the widths of two texts add up;
  * `Font.toUnits_eq`: a dimension is a fraction of the size at which the font is used,
    at 65536 units to the point.
-/
import DviMarkup.Font.Basic
import DviMarkup.Proofs.Number.Exact

namespace DviMarkup.Font

open Scalar

variable (f : Font) (mode : Strictness)

/-! ## Sums of widths -/

/-- The sum of the widths of a text in units of the metrics, if no character is missing. -/
def textWidth? : List UInt8 → Option Int
  | [] => some 0
  | code :: text => do
    let c ← f.charMetrics? mode code
    return c.width.toInt + (← textWidth? text)

theorem textWidth?_append (a b : List UInt8) :
    f.textWidth? mode (a ++ b) = do
      let w ← f.textWidth? mode a
      return w + (← f.textWidth? mode b) := by
  induction a with
  | nil => simp [textWidth?]
  | cons code a ih =>
    rw [List.cons_append, textWidth?, textWidth?, ih]
    cases f.charMetrics? mode code <;> cases f.textWidth? mode a <;>
      cases f.textWidth? mode b <;> simp [add_assoc]

variable [Completion]

theorem measureFrom_width (text : List UInt8) (width : ℚ) (height depth : Int32) :
    (f.measureFrom mode width height depth text).toOption.map (·.1) =
      (f.textWidth? mode text).map fun w : Int => width + w := by
  induction text generalizing width height depth with
  | nil => simp [measureFrom, textWidth?, Except.toOption]
  | cons code text ih =>
    rw [measureFrom, textWidth?]
    cases f.charMetrics? mode code with
    | none => rfl
    | some c =>
      rw [ih, ofInt_rat]
      cases f.textWidth? mode text <;> simp [add_assoc]

/-- **The width of a text is the sum of its characters' widths.** -/
theorem measure_width (text : List UInt8) :
    (f.measure mode text).toOption.map (·.width) =
      (f.textWidth? mode text).map fun w : Int => f.toUnits (w : ℚ) := by
  have converted : (f.measure mode text).toOption.map (·.width) =
      ((f.measureFrom mode (zero : ℚ) 0 0 text).toOption.map (·.1)).map f.toUnits := by
    rw [measure]
    cases f.measureFrom mode (zero : ℚ) 0 0 text <;> rfl
  rw [converted, measureFrom_width, zero_rat, Option.map_map]
  simp only [zero_add, Function.comp_def]

/-! ## Units -/

theorem toUnits_add (x y : ℚ) : f.toUnits (x + y) = f.toUnits x + f.toUnits y := by
  rw [toUnits, toUnits, toUnits, add_mul, add_mul]

/-- A dimension of the metrics is a fraction of the size at which the font is used. -/
theorem toUnits_eq (dimension : ℚ) :
    f.toUnits dimension = dimension / 2 ^ 20 * f.pointSize * 65536 := by
  simp only [toUnits, unitsPerFontUnit, pointSize, ofInt_rat]
  norm_num
  ring

end DviMarkup.Font
