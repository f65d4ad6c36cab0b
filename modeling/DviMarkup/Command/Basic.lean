/-
  Commands: what a typesetter is told to do.

  A command stands for one or several operations of a file.  Operations that
  mean nothing to a typesetter have no command, and recognised specials have
  commands of their own.

  * `Command` is a command, `Item` a command or the failure in its place;
  * `Command.ofOp` is the command of an operation.
-/
import DviMarkup.Failure
import DviMarkup.Font.Basic

namespace DviMarkup

/-- What a typesetter is told to do. -/
inductive Command where
  | preamble (numerator denominator magnification : UInt32) (comment : String)
  | beginPage (parameters : Vector Int32 10)
  | endPage
  | push
  | pop
  /-- Typeset a text and move right by its width. -/
  | setText (text : List UInt8)
  /-- Typeset a text and stay. -/
  | putText (text : List UInt8)
  /-- Draw a rule and move right by its width. -/
  | setRule (height width : Int32)
  /-- Draw a rule and stay. -/
  | putRule (height width : Int32)
  | moveRight (distance : Int32)
  | moveDown (distance : Int32)
  /-- Move by the content of a register, after setting it if an amount is given. -/
  | moveBy (register : Dvi.Register) (amount : Option Int32)
  | defineFont (number : UInt32) (definition : FontDefinition)
  | enableFont (number : UInt32)
  /-- A special that was not recognised. -/
  | special (payload : String)
  | beginPostamble
  | endPostamble
  | pushColor (color : String)
  | popColor
  /-- Set the size of the paper, in points. -/
  | setPaper (width height : Numeral)
  /-- Write markup as it is. -/
  | rawSvg (fragment : String)
  /-- Run code. -/
  | postScript (code : String)
  /-- Draw the image that the attributes describe. -/
  | image (attributes : String)
deriving Repr, DecidableEq

/-- A command, or the failure in its place. -/
abbrev Item := Except Failure Command

/-- The command of an operation, if it has one: a character needs a code that
    fits into a byte. -/
def Command.ofOp : Dvi.Op → Except Failure (Option Command)
  | .typesetChar code advance =>
    if code.toNat < 256 then
      let text := [code.toUInt8]
      .ok (if advance then setText text else putText text)
    else .error (.charOutOfRange code)
  | .typesetRule height width advance =>
    .ok (if advance then setRule height width else putRule height width)
  | .noOp => .ok none
  | .beginPage parameters _ => .ok (beginPage parameters)
  | .endPage => .ok endPage
  | .push => .ok push
  | .pop => .ok pop
  | .right d => .ok (moveRight d)
  | .down d => .ok (moveDown d)
  | .moveBy r => .ok (moveBy r none)
  | .setMoveBy r d => .ok (moveBy r (some d))
  | .enableFont number => .ok (enableFont number)
  | .special payload => .ok (special (Utf8.decode payload))
  | .defineFont number checksum atSize designSize _ name =>
    .ok (defineFont number { name, checksum, scaleFactor := atSize, designSize })
  | .preamble _ numerator denominator magnification comment =>
    .ok (preamble numerator denominator magnification comment)
  | .beginPostamble _ _ _ _ _ _ _ _ => .ok beginPostamble
  | .endPostamble _ _ _ => .ok endPostamble

/-- The item of an operation or of the fault in its place, if it has one. -/
def Item.ofOp? : Except Dvi.Fault Dvi.Op → Option Item
  | .error fault => some (.error (.dvi fault))
  | .ok op =>
    match Command.ofOp op with
    | .error failure => some (.error failure)
    | .ok none => none
    | .ok (some command) => some (.ok command)

end DviMarkup
