/-
  Fonts: metrics together with the size at which a document uses them.

  * `Strictness` tells what to do about characters that a table lacks;
  * `FontDefinition` is what a document says about a font, `Font` adds the
    metrics;
  * `Font.toUnits` turns a dimension of the metrics into DVI units, and
    `Font.pointSize` is the size in points;
  * `Font.measure` are the dimensions of a text, `Font.Extent`.
-/
import DviMarkup.Font.Metrics
import DviMarkup.Number.Scalar

namespace DviMarkup

/-- What to do about characters that a table lacks. -/
inductive Strictness where
  /-- A missing character is a failure. -/
  | strict
  /-- A missing character is replaced by another. -/
  | lenient
deriving Repr, DecidableEq

/-- What a document says about a font. -/
structure FontDefinition where
  name : String
  checksum : UInt32
  /-- The size at which the font is used, in DVI units. -/
  scaleFactor : UInt32
  /-- The size for which the font was made, in DVI units. -/
  designSize : UInt32
deriving Repr, DecidableEq

/-- A font that can be used. -/
structure Font extends FontDefinition where
  metrics : Metrics
deriving Repr, DecidableEq

/-- The dimensions of a text, in DVI units. -/
structure Extent (α : Type) where
  width : α
  height : α
  depth : α
deriving Repr

namespace Font

open Scalar

variable {α : Type} [Scalar α]

/-- The font's design size in points, by its metrics. -/
def designPoints (f : Font) : α :=
  ofInt f.metrics.designSize.toInt / ofInt 0x100000

/-- The number of DVI units in a unit of the metrics, at the design size. -/
def unitsPerFontUnit (f : Font) : α :=
  f.designPoints * ofInt 65536 / ofInt 0x100000

/-- The size at which the font is used, as a multiple of its design size. -/
def magnification (f : Font) : α :=
  if f.designSize = 0 then one
  else ofInt f.scaleFactor.toNat / ofInt f.designSize.toNat

/-- A dimension of the metrics in DVI units. -/
def toUnits (f : Font) (dimension : α) : α :=
  dimension * f.unitsPerFontUnit * f.magnification

/-- The size at which the font is used, in points. -/
def pointSize (f : Font) : α :=
  f.designPoints * f.magnification

/-- The character whose dimensions stand in for those of a missing one. -/
def substitute : UInt8 := 126

/-- The dimensions of a character, or nothing if the font lacks it and it may
    not be replaced. -/
def charMetrics? (f : Font) (mode : Strictness) (code : UInt8) : Option CharMetrics :=
  match f.metrics.character code, mode with
  | some c, _ => some c
  | none, .strict => none
  | none, .lenient => some ((f.metrics.character substitute).getD .blank)

/-- The dimensions of a text in units of the metrics, from those of the text
    before it on, or the first code that is missing. -/
def measureFrom (f : Font) (mode : Strictness) :
    (width : α) → (height depth : Int32) → List UInt8 → Except UInt8 (α × Int32 × Int32)
  | width, height, depth, [] => .ok (width, height, depth)
  | width, height, depth, code :: text =>
    match f.charMetrics? mode code with
    | none => .error code
    | some c => measureFrom f mode (width + ofInt c.width.toInt) (max height c.height)
        (max depth c.depth) text

/-- The dimensions of a text: the sum of the widths and the greatest height and
    depth, none of them below zero.  A character that is missing and may not be
    replaced is given back instead. -/
def measure (f : Font) (mode : Strictness) (text : List UInt8) : Except UInt8 (Extent α) :=
  match f.measureFrom mode (zero : α) 0 0 text with
  | .error code => .error code
  | .ok (width, height, depth) =>
    .ok { width := f.toUnits width
          height := f.toUnits (ofInt height.toInt)
          depth := f.toUnits (ofInt depth.toInt) }

end Font

end DviMarkup
