/-
  Typesetting as HTML with SVG in it.

  Text is placed by its distance in points from the corner of the page: as
  an element of HTML, or of SVG if an SVG element is open.

  * `Piece` is what is written at one time, with the numbers and texts in it,
    and `Piece.render` is how it is written;
  * `Markup` is what a typesetter of markup keeps;
  * `pointsPerUnit` is the size of a DVI unit.
-/
import DviMarkup.Font.Encoding
import DviMarkup.Graphics.Matrix
import DviMarkup.Text.Escape
import DviMarkup.Typesetter.Svg

namespace DviMarkup

open Scalar

/-! ## Pieces -/

/-- What is written at one time. -/
inductive Piece (α : Type) where
  /-- A text outside of SVG: the colour, the name of the font and its size, the
      place of the upper left corner, the height and the characters. -/
  | span (color family : String) (size top left height : α) (characters : String)
  /-- A text inside of SVG, with the place of its base line. -/
  | text (y x : α) (family : String) (size : α) (color : String) (transform : Matrix α)
      (characters : String)
  /-- A rectangle. -/
  | rule (x y width height : α) (color : String) (transform : Matrix α)
  /-- Markup that is written as it is. -/
  | raw (markup : String)
deriving Repr

variable {α : Type} [Scalar α]

/-- How a piece is written. -/
def Piece.render [Escaping] : Piece α → String
  | span color family size top left height characters =>
    "<span style=\"line-height: 0; color: " ++ color ++ "; font-family: " ++
      Escaping.value family ++ "; font-size: " ++ markup size ++
      "pt; position: absolute; top: " ++ markup top ++ "pt; left: " ++ markup left ++
      "pt; overflow: visible;\"><span style=\"margin-top: -" ++ markup size ++
      "pt; line-height: 0pt; height: " ++ markup size ++
      "pt; display: inline-block; vertical-align: baseline; \">" ++ Escaping.content characters ++
      "</span><span style=\"display: inline-block; vertical-align: " ++ markup height ++
      "pt; height: 0pt; line-height: 0;\"></span></span>"
  | text y x family size color transform characters =>
    "<text alignment-baseline=\"baseline\" y=\"" ++ markup y ++ "\" x=\"" ++ markup x ++
      "\" font-family=\"" ++ Escaping.value family ++ "\" font-size=\"" ++ markup size ++
      "\" fill=\"" ++ color ++ "\"" ++ transform.svgAttribute ++ ">" ++
      Escaping.content characters ++ "</text>"
  | rule x y width height color transform =>
    "<rect x=\"" ++ markup x ++ "\" y=\"" ++ markup y ++ "\" width=\"" ++ markup width ++
      "\" height=\"" ++ markup height ++ "\" fill=\"" ++ color ++ "\"" ++
      transform.svgAttribute ++ "></rect>"
  | raw markup => markup

/-- How pieces are written one after the other. -/
def renderAll [Escaping] (pieces : List (Piece α)) : String :=
  String.join (pieces.map Piece.render)

/-! ## State -/

/-- The size of a DVI unit in points: the preamble gives it in units of a
    hundred-thousandth of a centimetre, and 72.27 points are 2.54 centimetres. -/
def pointsPerUnit (numerator denominator magnification : UInt32) : α :=
  ofInt magnification.toNat * ofInt numerator.toNat / ofInt 1000 / ofInt denominator.toNat *
    ofPlaces 7227 2 / ofInt 100000 / ofPlaces 254 2

/-- What a typesetter of markup keeps. -/
structure Markup (α : Type) where
  encodings : Encodings
  mode : Strictness
  /-- The size of a DVI unit in points. -/
  pointsPerUnit : α
  /-- The number of SVG elements that are open. -/
  depth : Int
  color : String
  /-- The colours to come back to, the latest first. -/
  colors : List String
  paperWidth : α
  paperHeight : α
  /-- What was written. -/
  pieces : Array (Piece α)

namespace Markup

/-- The state at the beginning; until a preamble gives it, the unit is the one
    that is usual in TeX. -/
def start (encodings : Encodings) (mode : Strictness) : Markup α where
  encodings
  mode
  pointsPerUnit := DviMarkup.pointsPerUnit 25400000 473628672 1000
  depth := 0
  color := "black"
  colors := []
  paperWidth := zero
  paperHeight := zero
  pieces := #[]

/-- A distance in points, given in DVI units. -/
def points (m : Markup α) (units : α) : α :=
  units * m.pointsPerUnit

def write (m : Markup α) (piece : Piece α) : Markup α :=
  { m with pieces := m.pieces.push piece }

/-- The start tag of a picture. -/
def header (m : Markup α) : String :=
  let w := markup m.paperWidth
  let h := markup m.paperHeight
  "<svg version=\"1.1\" xmlns=\"http://www.w3.org/2000/svg\" " ++
    "xmlns:xlink=\"http://www.w3.org/1999/xlink\" width=\"" ++ w ++ "pt\" height=\"" ++ h ++
    "pt\" viewBox=\"-72 -72 " ++ w ++ " " ++ h ++ "\">"

/-- Writes a fragment of SVG at a place. -/
def putSvg (m : Markup α) (x y : α) (fragment : String) : Markup α :=
  let (out, depth) := Svg.resolve m.header.toList m.depth fragment.toList
  let out := Svg.placed (markup x).toList (markup y).toList out
  { m with depth }.write (.raw (String.ofList out))

/-- Writes a rectangle with its lower left corner at a place, if there is
    anything to see of it. -/
def putRule (m : Markup α) (x y : α) (transform : Matrix α) (height width : Int32) : Markup α :=
  if height ≤ 0 ∨ width ≤ 0 then m
  else
    let a := m.points (ofInt height.toInt)
    let b := m.points (ofInt width.toInt)
    m.write (.rule x (y - a) b a m.color transform)

/-- Writes characters at a place, given the height in DVI units. -/
def putText (m : Markup α) (x y : α) (transform : Matrix α) (font : Font) (height : α)
    (characters : String) : Markup α :=
  let height := m.points height
  if m.depth = 0 then
    m.write (.span m.color font.name font.pointSize (y - height) x height characters)
  else
    m.write (.text y x font.name font.pointSize m.color transform characters)

/-- What was written. -/
def output [Escaping] (m : Markup α) : String :=
  renderAll m.pieces.toList

end Markup

end DviMarkup
