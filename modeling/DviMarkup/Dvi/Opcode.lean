/-
  The codes of operations.

  The first byte of an operation says which one it is and how wide its operand
  is.  The 250 codes in use fall into families: single codes, four codes in a
  row for an operand of one to four bytes, and two blocks whose codes are
  operands themselves.

  * `Width` is the width of an operand; `Width.ofUnsigned` and `Width.ofSigned` are the
    least widths for a number;
  * `Opcode` is a code by what it means; `Opcode.toNat` is its number and
    `Opcode.ofNat?` the meaning of a number.
-/
import DviMarkup.Dvi.Op

namespace DviMarkup.Dvi

/-- The width of an operand. -/
inductive Width where
  | one | two | three | four
deriving Repr, DecidableEq

namespace Width

/-- The number of bytes. -/
def bytes : Width → Nat
  | one => 1
  | two => 2
  | three => 3
  | four => 4

/-- The place in a family of four codes. -/
def index : Width → Nat
  | one => 0
  | two => 1
  | three => 2
  | four => 3

/-- The width at a place in a family of four codes. -/
def ofIndex : Nat → Width
  | 0 => one
  | 1 => two
  | 2 => three
  | _ => four

/-- The least width for a number without sign. -/
def ofUnsigned (n : Nat) : Width :=
  if n < 0x100 then one else if n < 0x10000 then two else if n < 0x1000000 then three else four

/-- Whether a number has a place among those of the given number of bits, half
    of them negative. -/
def fits (bits : Nat) (n : Int) : Bool :=
  -Nat.pow 2 (bits - 1) ≤ n && n < Nat.pow 2 (bits - 1)

/-- The least width for a number with sign. -/
def ofSigned (n : Int) : Width :=
  if fits 8 n then one else if fits 16 n then two else if fits 24 n then three else four

end Width

/-- The code of an operation. -/
inductive Opcode where
  /-- A character whose code is the operation's. -/
  | setShort (code : Fin 128)
  | set (width : Width)
  | setRule
  | put (width : Width)
  | putRule
  | noOp
  | beginPage
  | endPage
  | push
  | pop
  | right (width : Width)
  | moveBy (register : Register)
  | setMoveBy (register : Register) (width : Width)
  | down (width : Width)
  /-- A font whose number is in the operation's code. -/
  | fontShort (number : Fin 64)
  | font (width : Width)
  | special (width : Width)
  | defineFont (width : Width)
  | preamble
  | beginPostamble
  | endPostamble
deriving Repr, DecidableEq

namespace Opcode

/-- The code that moves by a register; those that set it follow. -/
def moveBase : Register → Nat
  | .w => 147
  | .x => 152
  | .y => 161
  | .z => 166

/-- The number of a code. -/
def toNat : Opcode → Nat
  | setShort c => c
  | set w => 128 + w.index
  | setRule => 132
  | put w => 133 + w.index
  | putRule => 137
  | noOp => 138
  | beginPage => 139
  | endPage => 140
  | push => 141
  | pop => 142
  | right w => 143 + w.index
  | moveBy r => moveBase r
  | setMoveBy r w => moveBase r + 1 + w.index
  | down w => 157 + w.index
  | fontShort n => 171 + n
  | font w => 235 + w.index
  | special w => 239 + w.index
  | defineFont w => 243 + w.index
  | preamble => 247
  | beginPostamble => 248
  | endPostamble => 249

/-- The code of a register's family at the given distance from its first. -/
def ofRegister (r : Register) : (offset : Nat) → Opcode
  | 0 => moveBy r
  | offset + 1 => setMoveBy r (Width.ofIndex offset)

/-- The code with the given number. -/
def ofNat? (n : Nat) : Option Opcode :=
  if h : n < 128 then some (setShort ⟨n, h⟩)
  else if n < 132 then some (set (.ofIndex (n - 128)))
  else if n = 132 then some setRule
  else if n < 137 then some (put (.ofIndex (n - 133)))
  else if n = 137 then some putRule
  else if n = 138 then some noOp
  else if n = 139 then some beginPage
  else if n = 140 then some endPage
  else if n = 141 then some push
  else if n = 142 then some pop
  else if n < 147 then some (right (.ofIndex (n - 143)))
  else if n < 152 then some (ofRegister .w (n - 147))
  else if n < 157 then some (ofRegister .x (n - 152))
  else if n < 161 then some (down (.ofIndex (n - 157)))
  else if n < 166 then some (ofRegister .y (n - 161))
  else if n < 171 then some (ofRegister .z (n - 166))
  else if h : n - 171 < 64 then some (fontShort ⟨n - 171, h⟩)
  else if n < 239 then some (font (.ofIndex (n - 235)))
  else if n < 243 then some (special (.ofIndex (n - 239)))
  else if n < 247 then some (defineFont (.ofIndex (n - 243)))
  else if n = 247 then some preamble
  else if n = 248 then some beginPostamble
  else if n = 249 then some endPostamble
  else none

end Opcode

end DviMarkup.Dvi
