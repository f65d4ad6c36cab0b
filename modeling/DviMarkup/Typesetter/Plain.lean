/-
  Typesetting as plain text.

  The texts of a page are collected and written at its end in reading order.
  A text that stands lower than the one before begins a line; one that stands
  further right than a space needs is set apart by a blank.

  * `Snippet` is a text with its place and `Snippet.precedes` reading order;
  * `separator` is what stands between two texts and `pageText` is the text of a
    page;
  * `Plain` is what a typesetter of plain text keeps.
-/
import DviMarkup.Font.Encoding

namespace DviMarkup

open Scalar

/-! ## Texts of a page -/

/-- A text and where it stands, in DVI units. -/
structure Snippet (α : Type) where
  h : α
  v : α
  /-- Where the text ends. -/
  stop : α
  fontSize : α
  text : String
deriving Repr

variable {α : Type} [Scalar α]

/-- Whether a text does not stand after another: from top to bottom, then from
    left to right. -/
def Snippet.precedes (s t : Snippet α) : Bool :=
  ((order s.v t.v).then (order s.h t.h)).isLE

/-- What stands between a text and the next: a line ends if the next stands
    lower, and a gap of more than a fifth of the font size is a blank. -/
def separator (s t : Snippet α) : String :=
  if lt s.v t.v then "\n"
  else if lt (ofPlaces 2 1 * s.fontSize) (t.h - s.stop) then " "
  else ""

/-- The texts after a text, with what stands between. -/
def continued (s : Snippet α) : List (Snippet α) → String
  | [] => ""
  | t :: rest => separator s t ++ t.text ++ continued t rest

/-- The texts in the given order, with what stands between and a line end. -/
def laidOut : List (Snippet α) → String
  | [] => ""
  | s :: rest => s.text ++ continued s rest ++ "\n"

/-- The text of a page; texts at the same place keep their order. -/
def pageText (snippets : List (Snippet α)) : String :=
  laidOut (snippets.mergeSort Snippet.precedes)

/-! ## State -/

/-- What a typesetter of plain text keeps. -/
structure Plain (α : Type) where
  encodings : Encodings
  mode : Strictness
  /-- The texts of the page so far, the latest first. -/
  snippets : List (Snippet α)
  /-- The number of pages that were begun. -/
  pages : Nat
  /-- What was written. -/
  written : String

namespace Plain

/-- The state at the beginning. -/
def start (encodings : Encodings) (mode : Strictness) : Plain α where
  encodings
  mode
  snippets := []
  pages := 0
  written := ""

/-- Begins a page; a form feed comes between pages. -/
def beginPage (p : Plain α) : Plain α :=
  { p with
    written := if 0 < p.pages then p.written ++ "\x0C" else p.written
    pages := p.pages + 1
    snippets := [] }

/-- Writes the page. -/
def endPage (p : Plain α) : Plain α :=
  { p with written := p.written ++ pageText p.snippets.reverse, snippets := [] }

/-- Keeps a text for the end of the page. -/
def putText (p : Plain α) (h v : α) (font : Font) (width : α) (text : List UInt8) : Plain α :=
  { p with
    snippets :=
      { h, v, stop := h + width, fontSize := ofInt font.scaleFactor.toNat
        text := String.ofList (text.map (p.encodings.glyph font.name)) } :: p.snippets }

end Plain

end DviMarkup
