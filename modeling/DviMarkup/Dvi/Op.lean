/-
  The operations of a DVI file.

  A DVI file is a flat list of operations: a preamble, pages, each between a
  beginning and an end, and a postamble.  Distances are in units that the
  preamble defines.

  * `Register` is one of the four registers for distances that recur;
  * `Op` is an operation; operations that differ only in the width of their
    operands are one;
  * `Fault` is why bytes or their source do not yield a further operation.
-/

namespace DviMarkup.Dvi

/-- A register for a distance: `w` and `x` move to the right, `y` and `z` down. -/
inductive Register where
  | w | x | y | z
deriving Repr, DecidableEq

/-- Whether moving by the register changes the horizontal coordinate. -/
def Register.isHorizontal : Register → Bool
  | w | x => true
  | y | z => false

/-- An operation of a DVI file. -/
inductive Op where
  /-- Typeset a character of the current font; `advance` tells whether to move
      right by its width afterwards. -/
  | typesetChar (code : UInt32) (advance : Bool)
  /-- Typeset a solid rectangle; `advance` as for a character. -/
  | typesetRule (height width : Int32) (advance : Bool)
  | noOp
  /-- Begin a page: ten parameters and the place of the page before. -/
  | beginPage (parameters : Vector Int32 10) (previous : Int32)
  | endPage
  /-- Save the registers. -/
  | push
  /-- Restore the registers. -/
  | pop
  | right (distance : Int32)
  | down (distance : Int32)
  /-- Move by the content of a register. -/
  | moveBy (register : Register)
  /-- Set a register and move by it. -/
  | setMoveBy (register : Register) (distance : Int32)
  /-- Make a font the current one. -/
  | enableFont (number : UInt32)
  /-- A payload for the program that reads the file. -/
  | special (payload : List UInt8)
  /-- Give a font a number. -/
  | defineFont (number checksum atSize designSize : UInt32) (area name : String)
  | preamble (format : UInt8) (numerator denominator magnification : UInt32) (comment : String)
  | beginPostamble (finalPage : Int32) (numerator denominator magnification : UInt32)
      (largestHeight largestWidth : UInt32) (stackDepth pages : UInt16)
  /-- End the file: the place of the postamble, the format and the number of
      padding bytes. -/
  | endPostamble (postamble : Int32) (format : UInt8) (padding : Nat)
deriving Repr, DecidableEq

/-- Why there is no further operation. -/
inductive Fault where
  /-- The byte is not the code of an operation. -/
  | invalidCode (code : UInt8)
  /-- The data end within the operands of the operation with the given code. -/
  | truncated (code : UInt8)
  /-- The source failed for the given reason. -/
  | unreadable (reason : String)
deriving Repr, DecidableEq

def Fault.message : Fault → String
  | .invalidCode code => s!"invalid op code {code}"
  | .truncated code => s!"data ended while parsing payload for op code {code}"
  | .unreadable reason => s!"failed to read DVI data: {reason}"

end DviMarkup.Dvi
