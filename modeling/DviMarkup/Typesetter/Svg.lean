/-
  Fragments of SVG and the pictures in them.

  A picture begins with `<svg beginpicture>` and ends with `</svg endpicture>`.
  Pictures may be nested, also in elements that the fragments open themselves,
  and a fragment need not end what it begins.  So the elements that are open are
  counted across fragments, and only a picture that is not nested in another
  element is written as an element of its own.

  * `Mark` is a piece of a fragment and `marks` are its pieces;
  * `Mark.resolve` is what is written for a piece, and `resolve` for a fragment;
  * `placed` puts the current place where a fragment asks for it.
-/
import DviMarkup.Text.Blank

namespace DviMarkup.Svg

/-- A piece of a fragment. -/
inductive Mark where
  /-- A character that belongs to no other piece. -/
  | char (c : Char)
  /-- The beginning `<svg` of a start tag. -/
  | openTag
  /-- The beginning `</svg` of an end tag. -/
  | closeTag
  | beginPicture
  | endPicture
deriving Repr, DecidableEq

def openText : List Char := "<svg".toList
def closeText : List Char := "</svg".toList
def beginText : List Char := "<svg beginpicture>".toList
def endText : List Char := "</svg endpicture>".toList

/-- Whether a character ends the name of an element. -/
def endsName (c : Char) : Bool :=
  c = '>' || c = '/' || Text.isBlank c

/-- Whether a text begins with a start tag of the element `svg`. -/
def startsOpenTag (s : List Char) : Bool :=
  match openText.isPrefixOf? s with
  | some (c :: _) => endsName c
  | _ => false

/-- The piece at the front of a text and its length. -/
def firstMark (c : Char) (rest : List Char) : Mark × Nat :=
  let s := c :: rest
  if closeText.isPrefixOf s then
    if endText.isPrefixOf s then (.endPicture, endText.length) else (.closeTag, closeText.length)
  else if startsOpenTag s then
    if beginText.isPrefixOf s then (.beginPicture, beginText.length)
    else (.openTag, openText.length)
  else (.char c, 1)

/-- The pieces of a fragment. -/
def marks : List Char → List Mark
  | [] => []
  | c :: rest =>
    let (mark, length) := firstMark c rest
    mark :: marks (rest.drop (length - 1))
termination_by s => s.length
decreasing_by
  rw [List.length_drop, List.length_cons]
  omega

/-- What is written for a piece, given the number of open elements and the
    header of a picture, and the number of open elements afterwards. -/
def Mark.resolve (header : List Char) (depth : Int) : Mark → List Char × Int
  | char c => ([c], depth)
  | openTag => (openText, depth + 1)
  | closeTag => (closeText, depth - 1)
  | beginPicture => (if depth + 1 ≤ 1 then header else [], depth + 1)
  | endPicture => (if depth - 1 ≤ 0 then "</svg>".toList else [], depth - 1)

/-- What is written for pieces in order, and the number of open elements
    afterwards. -/
def resolveMarks (header : List Char) : (depth : Int) → List Mark → List Char × Int
  | depth, [] => ([], depth)
  | depth, m :: ms =>
    let (out, depth) := m.resolve header depth
    let (outs, depth) := resolveMarks header depth ms
    (out ++ outs, depth)

/-- What is written for a fragment, and the number of open elements afterwards. -/
def resolve (header : List Char) (depth : Int) (fragment : List Char) : List Char × Int :=
  resolveMarks header depth (marks fragment)

/-- The text with the place in it. -/
def placed (x y : List Char) (s : List Char) : List Char :=
  Text.replaceAll '\x7b' "?y\x7d".toList y (Text.replaceAll '\x7b' "?x\x7d".toList x s)

end DviMarkup.Svg
