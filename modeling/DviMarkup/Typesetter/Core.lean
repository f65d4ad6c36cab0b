/-
  What every typesetter keeps, whatever it writes.

  * `Position` are the six registers;
  * `Library` is where metrics come from: its answers may depend on what it
    was asked before;
  * `Core` is the state: registers and their stack, fonts, transform and its
    stack, and the metrics that were loaded.
-/
import DviMarkup.Failure
import DviMarkup.Font.Basic
import DviMarkup.Graphics.Matrix

namespace DviMarkup

/-! ## Registers -/

/-- The registers: the place `h`, `v` and four distances. -/
structure Position (α : Type) where
  h : α
  v : α
  w : α
  x : α
  y : α
  z : α
deriving Repr, DecidableEq

namespace Position

variable {α : Type}

/-- All registers at zero. -/
def origin [Scalar α] : Position α :=
  ⟨Scalar.zero, Scalar.zero, Scalar.zero, Scalar.zero, Scalar.zero, Scalar.zero⟩

/-- The content of a register for a distance. -/
def get (p : Position α) : Dvi.Register → α
  | .w => p.w
  | .x => p.x
  | .y => p.y
  | .z => p.z

/-- Gives a register for a distance another content. -/
def set (p : Position α) (d : α) : Dvi.Register → Position α
  | .w => { p with w := d }
  | .x => { p with x := d }
  | .y => { p with y := d }
  | .z => { p with z := d }

end Position

/-! ## Metrics -/

/-- A source of metrics: its answer for a font, given the fonts that it was
    asked for before, the latest first. -/
structure Library where
  load : (before : List String) → (font : String) → Except Failure Metrics

/-- A library with fixed contents. -/
def Library.ofList (fonts : List (String × Metrics)) : Library where
  load _ font :=
    match fonts.lookup font with
    | some metrics => .ok metrics
    | none => .error (.fontNotFound font [])

/-! ## State -/

/-- The state that all typesetters share. -/
structure Core (α : Type) where
  position : Position α
  /-- The saved registers, the latest first. -/
  stack : List (Position α)
  /-- The fonts that have numbers. -/
  fonts : List (UInt32 × Font)
  /-- The current font. -/
  font : Option Font
  /-- The current transform. -/
  matrix : Matrix α
  /-- The saved transforms, the latest first. -/
  saved : List (Matrix α)
  library : Library
  /-- The fonts that the library was asked for, the latest first. -/
  asked : List String
  /-- The metrics that were loaded. -/
  metrics : List (String × Metrics)

namespace Core

variable {α : Type} [Scalar α]

/-- The state at the beginning. -/
def start (library : Library) : Core α where
  position := .origin
  stack := []
  fonts := []
  font := none
  matrix := .identity
  saved := []
  library
  asked := []
  metrics := []

/-- The state at the beginning of a page: the registers are at zero and none
    are saved. -/
def beginPage (c : Core α) : Core α :=
  { c with position := .origin, stack := [] }

def moveRight (c : Core α) (d : α) : Core α :=
  { c with position := { c.position with h := c.position.h + d } }

def moveDown (c : Core α) (d : α) : Core α :=
  { c with position := { c.position with v := c.position.v + d } }

/-- Goes to a place, given in DVI units. -/
def moveTo (c : Core α) (h v : α) : Core α :=
  { c with position := { c.position with h, v } }

/-- Saves the registers. -/
def push (c : Core α) : Core α :=
  { c with stack := c.position :: c.stack }

/-- Saves the transform. -/
def save (c : Core α) : Core α :=
  { c with saved := c.matrix :: c.saved }

/-- Moves by a register, after setting it if an amount is given. -/
def moveBy (c : Core α) (r : Dvi.Register) (amount : Option α) : Core α :=
  let c := match amount with
    | some d => { c with position := c.position.set d r }
    | none => c
  if r.isHorizontal then c.moveRight (c.position.get r) else c.moveDown (c.position.get r)

end Core

end DviMarkup
