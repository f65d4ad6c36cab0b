/-
  Operations out of bytes.

  * `Payload` reads operands off the front of a byte list and fails if the
    bytes run out;
  * `Opcode.operands` reads the operands that belong to a code;
  * `Op.decode` reads one operation and gives back the bytes after it.
-/
import DviMarkup.Dvi.Opcode
import DviMarkup.Number.BigEndian
import DviMarkup.Text.Utf8

namespace DviMarkup.Dvi

/-- A reader of operands: a value and the bytes after it, or nothing if the
    bytes run out. -/
abbrev Payload := StateT (List UInt8) Option

namespace Payload

/-- The next `count` bytes. -/
def take (count : Nat) : Payload (List UInt8) := fun bytes =>
  if count ≤ bytes.length then some (bytes.take count, bytes.drop count) else none

/-- A number without sign in `count` bytes. -/
def unsigned (count : Nat) : Payload Nat :=
  BigEndian.unsigned <$> take count

/-- A number with sign in `count` bytes. -/
def signed (count : Nat) : Payload Int :=
  BigEndian.signed <$> take count

def u8 : Payload UInt8 := UInt8.ofNat <$> unsigned 1
def u16 : Payload UInt16 := UInt16.ofNat <$> unsigned 2
def u32 : Payload UInt32 := UInt32.ofNat <$> unsigned 4
def i32 : Payload Int32 := Int32.ofInt <$> signed 4

/-- A number without sign in an operand of the given width. -/
def word (w : Width) : Payload UInt32 := UInt32.ofNat <$> unsigned w.bytes

/-- A distance in an operand of the given width. -/
def distance (w : Width) : Payload Int32 := Int32.ofInt <$> signed w.bytes

/-- A text of `count` bytes. -/
def text (count : Nat) : Payload String :=
  Utf8.decode <$> take count

/-- `count` numbers with sign, in order. -/
def words : (count : Nat) → Payload (Vector Int32 count)
  | 0 => pure #v[]
  | count + 1 => do
    let before ← words count
    return before.push (← i32)

/-- All the padding bytes that follow. -/
def padding : Payload Nat := fun bytes =>
  let run := bytes.takeWhile (· == 223)
  some (run.length, bytes.drop run.length)

end Payload

open Payload in
/-- The operands of an operation with the given code. -/
def Opcode.operands : Opcode → Payload Op
  | setShort c => return .typesetChar (UInt32.ofNat c) true
  | set w => return .typesetChar (← word w) true
  | setRule => return .typesetRule (← i32) (← i32) true
  | put w => return .typesetChar (← word w) false
  | putRule => return .typesetRule (← i32) (← i32) false
  | noOp => return .noOp
  | beginPage => return .beginPage (← words 10) (← i32)
  | endPage => return .endPage
  | push => return .push
  | pop => return .pop
  | right w => return .right (← distance w)
  | moveBy r => return .moveBy r
  | setMoveBy r w => return .setMoveBy r (← distance w)
  | down w => return .down (← distance w)
  | fontShort n => return .enableFont (UInt32.ofNat n)
  | font w => return .enableFont (← word w)
  | special w => do
    let length ← unsigned w.bytes
    return .special (← take length)
  | defineFont w => do
    let number ← word w
    let checksum ← u32
    let atSize ← u32
    let designSize ← u32
    let areaLength ← unsigned 1
    let nameLength ← unsigned 1
    return .defineFont number checksum atSize designSize (← text areaLength) (← text nameLength)
  | preamble => do
    let format ← u8
    let numerator ← u32
    let denominator ← u32
    let magnification ← u32
    let length ← unsigned 1
    return .preamble format numerator denominator magnification (← text length)
  | beginPostamble =>
    return .beginPostamble (← i32) (← u32) (← u32) (← u32) (← u32) (← u32) (← u16) (← u16)
  | endPostamble => return .endPostamble (← i32) (← u8) (← padding)

/-- The operation at the front of the data and the bytes after it, or nothing
    if there are no data. -/
def Op.decode : List UInt8 → Except Fault (Option (Op × List UInt8))
  | [] => .ok none
  | code :: rest =>
    match Opcode.ofNat? code.toNat with
    | none => .error (.invalidCode code)
    | some opcode =>
      match opcode.operands rest with
      | none => .error (.truncated code)
      | some decoded => .ok (some decoded)

end DviMarkup.Dvi
