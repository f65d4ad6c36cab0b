/-
  Typesetters: the state that all of them share, and what they write.

  * `Output` is what a typesetter writes: nothing, the bare fragments, markup or
    plain text;
  * `Typesetter` is a typesetter;
  * `Action` is something that is done with one: it ends with a value or a
    failure, and with the typesetter as it was left in either case;
  * the actions in `Typesetter` are what commands and code are made of.
-/
import DviMarkup.Typesetter.Core
import DviMarkup.Typesetter.Markup
import DviMarkup.Typesetter.Plain

namespace DviMarkup

open Scalar

/-- What a typesetter writes. -/
inductive Output (α : Type) where
  /-- Nothing. -/
  | silent
  /-- The fragments of SVG as they are. -/
  | fragments (written : String)
  | markup (state : Markup α)
  | plain (state : Plain α)

/-- A typesetter. -/
structure Typesetter (α : Type) where
  core : Core α
  output : Output α

/-- Something that is done with a typesetter. -/
abbrev Action (α β : Type) := ExceptT Failure (StateM (Typesetter α)) β

namespace Typesetter

variable {α : Type} [Scalar α]

/-! ## Kinds of typesetters -/

def silent (library : Library) : Typesetter α :=
  { core := .start library, output := .silent }

def fragments (library : Library) : Typesetter α :=
  { core := .start library, output := .fragments "" }

def markup (library : Library) (encodings : Encodings) (mode : Strictness) : Typesetter α :=
  { core := .start library, output := .markup (.start encodings mode) }

def plain (library : Library) (encodings : Encodings) (mode : Strictness) : Typesetter α :=
  { core := .start library, output := .plain (.start encodings mode) }

/-- What was written. -/
def written [Escaping] (t : Typesetter α) : String :=
  match t.output with
  | .silent => ""
  | .fragments written => written
  | .markup m => m.output
  | .plain p => p.written

/-! ## Changes of the state -/

/-- Changes the shared state. -/
def modifyCore (f : Core α → Core α) : Action α Unit :=
  modify fun t => { t with core := f t.core }

/-- Changes what is kept for markup, if markup is written. -/
def modifyMarkup (f : Core α → Markup α → Markup α) : Action α Unit :=
  modify fun t =>
    match t.output with
    | .markup m => { t with output := .markup (f t.core m) }
    | _ => t

/-- Changes what is kept for plain text, if plain text is written. -/
def modifyPlain (f : Core α → Plain α → Plain α) : Action α Unit :=
  modify fun t =>
    match t.output with
    | .plain p => { t with output := .plain (f t.core p) }
    | _ => t

/-! ## Places -/

/-- The place in the units of the output: points in markup, otherwise DVI units. -/
def currentPoint (t : Typesetter α) : α × α :=
  let p := t.core.position
  match t.output with
  | .markup m => (m.points p.h, m.points p.v)
  | _ => (p.h, p.v)

/-- Goes to a place in the units of the output. -/
def setCurrentPoint (x y : α) : Action α Unit := do
  match (← get).output with
  | .markup m => modifyCore (·.moveTo (x / m.pointsPerUnit) (y / m.pointsPerUnit))
  | _ => modifyCore (·.moveTo x y)

def moveRight (d : α) : Action α Unit := modifyCore (·.moveRight d)
def moveDown (d : α) : Action α Unit := modifyCore (·.moveDown d)

/-- Saves the registers. -/
def push : Action α Unit := modifyCore (·.push)

/-- Restores the registers that were saved last. -/
def pop : Action α Unit := do
  match (← get).core.stack with
  | [] => throw .positionStackUnderflow
  | position :: stack => modifyCore fun c => { c with position, stack }

/-! ## Transforms -/

/-- Changes the transform. -/
def transform (f : Matrix α → Matrix α) : Action α Unit :=
  modifyCore fun c => { c with matrix := f c.matrix }

/-- Saves the transform. -/
def saveTransform : Action α Unit := modifyCore (·.save)

/-- Restores the transform that was saved last. -/
def restoreTransform : Action α Unit := do
  match (← get).core.saved with
  | [] => throw (.postScript .nothingSaved)
  | matrix :: saved => modifyCore fun c => { c with matrix, saved }

/-! ## Fonts -/

/-- The metrics of a font: those loaded before, or else those of the library,
    which are kept. -/
def loadMetrics (font : String) : Action α Metrics := do
  let c := (← get).core
  match c.metrics.lookup font with
  | some metrics => return metrics
  | none =>
    modifyCore fun c => { c with asked := font :: c.asked }
    match c.library.load c.asked font with
    | .error failure => throw failure
    | .ok metrics =>
      modifyCore fun c => { c with metrics := (font, metrics) :: c.metrics }
      return metrics

/-- The font with a number. -/
def definedFont (t : Typesetter α) (number : UInt32) : Option Font :=
  t.core.fonts.lookup number

/-- Gives a font a number, unless the number has one already. -/
def defineFont (number : UInt32) (definition : FontDefinition) : Action α Unit := do
  match (← get).definedFont number with
  | some _ => return ()
  | none =>
    let metrics ← loadMetrics definition.name
    modifyCore fun c => { c with fonts := (number, { definition with metrics }) :: c.fonts }

/-- Makes the font with a number the current one. -/
def enableFont (number : UInt32) : Action α Unit := do
  match (← get).definedFont number with
  | none => throw (.undefinedFont number)
  | some font => modifyCore fun c => { c with font := some font }

/-- The current font. -/
def currentFont : Action α Font := do
  match (← get).core.font with
  | none => throw .noActiveFont
  | some font => return font

/-! ## Document and pages -/

/-- Learns the size of a DVI unit. -/
def preamble (numerator denominator magnification : UInt32) : Action α Unit :=
  modifyMarkup fun _ m =>
    { m with pointsPerUnit := DviMarkup.pointsPerUnit numerator denominator magnification }

/-- Begins a page. -/
def beginPage : Action α Unit := do
  modifyPlain fun _ p => p.beginPage
  modifyCore (·.beginPage)

/-- Ends a page. -/
def endPage : Action α Unit :=
  modifyPlain fun _ p => p.endPage

/-- Learns the size of the paper, in points. -/
def setPaper (width height : α) : Action α Unit :=
  modifyMarkup fun _ m => { m with paperWidth := width, paperHeight := height }

/-! ## Colours -/

/-- Changes the colour. -/
def pushColor (color : String) : Action α Unit :=
  modifyMarkup fun _ m => { m with color, colors := m.color :: m.colors }

/-- Comes back to the colour before the last change.  Only markup has colours. -/
def popColor : Action α Unit := do
  match (← get).output with
  | .markup m =>
    match m.colors with
    | [] => throw .colorStackUnderflow
    | color :: colors => modifyMarkup fun _ m => { m with color, colors }
  | _ => return ()

/-! ## Writing -/

/-- Draws a rectangle with its lower left corner at the current place. -/
def putRule (height width : Int32) : Action α Unit := do
  let (x, y) := (← get).currentPoint
  modifyMarkup fun c m => m.putRule x y c.matrix height width

/-- Writes a fragment of SVG. -/
def putSvg (fragment : String) : Action α Unit := do
  let (x, y) := (← get).currentPoint
  match (← get).output with
  | .fragments written =>
    modify fun t => { t with output := .fragments (written ++ fragment) }
  | _ => modifyMarkup fun _ m => m.putSvg x y fragment

/-- Writes markup as it is. -/
def putHtml (html : String) : Action α Unit :=
  modifyMarkup fun _ m => m.write (.raw html)

/-- The dimensions of a text in the current font. -/
def measure (font : Font) (mode : Strictness) (text : List UInt8) : Action α (Extent α) :=
  match font.measure mode text with
  | .ok extent => return extent
  | .error code => throw (.missingGlyph font.name code)

/-- Typesets a text at the current place: its width in DVI units.  Only markup
    and plain text have texts, and only markup needs the entries of encodings. -/
def putText (text : List UInt8) : Action α α := do
  let t ← get
  match t.output with
  | .markup m =>
    let font ← currentFont
    let extent ← measure font m.mode text
    match m.encodings.resolveAll m.mode font.name text with
    | .error code => throw (.missingEncoding font.name code)
    | .ok characters =>
      let (x, y) := t.currentPoint
      modifyMarkup fun c m => m.putText x y c.matrix font extent.height (String.ofList characters)
      return extent.width
  | .plain p =>
    let font ← currentFont
    let extent ← measure font p.mode text
    modifyPlain fun c p => p.putText c.position.h c.position.v font extent.width text
    return extent.width
  | _ => return zero

end Typesetter

end DviMarkup
