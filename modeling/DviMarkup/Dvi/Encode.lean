/-
  Bytes for operations.

  An operation is written with the narrowest operand that holds its value.  A
  text is cut off after 255 bytes and a payload after 2^32 - 1, so that the
  length before it always tells where it ends.

  * `Op.opcode` chooses the code, and with it the width of the operand;
  * `Op.payload` spells the operands;
  * `Op.encode` is an operation's bytes, `encodeAll` those of a list.
-/
import DviMarkup.Dvi.Opcode
import DviMarkup.Number.BigEndian
import DviMarkup.Text.Utf8

namespace DviMarkup.Dvi

/-- The code under which an operation is written. -/
def Op.opcode : Op → Opcode
  | typesetChar code true =>
    if h : code.toNat < 128 then .setShort ⟨code.toNat, h⟩ else .set (.ofUnsigned code.toNat)
  | typesetChar code false => .put (.ofUnsigned code.toNat)
  | typesetRule _ _ true => .setRule
  | typesetRule _ _ false => .putRule
  | noOp => .noOp
  | beginPage _ _ => .beginPage
  | endPage => .endPage
  | push => .push
  | pop => .pop
  | right d => .right (.ofSigned d.toInt)
  | down d => .down (.ofSigned d.toInt)
  | moveBy r => .moveBy r
  | setMoveBy r d => .setMoveBy r (.ofSigned d.toInt)
  | enableFont number =>
    if h : number.toNat < 64 then .fontShort ⟨number.toNat, h⟩ else .font (.ofUnsigned number.toNat)
  | special payload => .special (.ofUnsigned (min payload.length 0xFFFFFFFF))
  | defineFont number _ _ _ _ _ => .defineFont (.ofUnsigned number.toNat)
  | preamble _ _ _ _ _ => .preamble
  | beginPostamble _ _ _ _ _ _ _ _ => .beginPostamble
  | endPostamble _ _ _ => .endPostamble

namespace Payload

def ofU8 (n : UInt8) : List UInt8 := [n]
def ofU16 (n : UInt16) : List UInt8 := BigEndian.ofNat 2 n.toNat
def ofU32 (n : UInt32) : List UInt8 := BigEndian.ofNat 4 n.toNat
def ofI32 (n : Int32) : List UInt8 := BigEndian.ofInt 4 n.toInt

/-- A number without sign in as many bytes as it needs. -/
def ofWord (n : Nat) : List UInt8 := BigEndian.ofNat (Width.ofUnsigned n).bytes n

/-- A distance in as many bytes as it needs. -/
def ofDistance (d : Int32) : List UInt8 := BigEndian.ofInt (Width.ofSigned d.toInt).bytes d.toInt

/-- The bytes of a text that are written. -/
def ofText (s : String) : List UInt8 := (Utf8.encode s).take 255

/-- The length of what is written of a text, in one byte. -/
def lengthOf (s : String) : List UInt8 := BigEndian.ofNat 1 (ofText s).length

end Payload

open Payload in
/-- The operands of an operation, as its code announces them. -/
def Op.payload : Op → List UInt8
  | typesetChar code advance =>
    if advance ∧ code.toNat < 128 then [] else ofWord code.toNat
  | typesetRule height width _ => ofI32 height ++ ofI32 width
  | noOp | endPage | push | pop | moveBy _ => []
  | beginPage parameters previous => parameters.toList.flatMap ofI32 ++ ofI32 previous
  | right d | down d | setMoveBy _ d => ofDistance d
  | enableFont number => if number.toNat < 64 then [] else ofWord number.toNat
  | special payload =>
    let length := min payload.length 0xFFFFFFFF
    ofWord length ++ payload.take length
  | defineFont number checksum atSize designSize area name =>
    ofWord number.toNat ++ ofU32 checksum ++ ofU32 atSize ++ ofU32 designSize ++
      lengthOf area ++ lengthOf name ++ ofText area ++ ofText name
  | preamble format numerator denominator magnification comment =>
    ofU8 format ++ ofU32 numerator ++ ofU32 denominator ++ ofU32 magnification ++
      lengthOf comment ++ ofText comment
  | beginPostamble finalPage numerator denominator magnification height width depth pages =>
    ofI32 finalPage ++ ofU32 numerator ++ ofU32 denominator ++ ofU32 magnification ++
      ofU32 height ++ ofU32 width ++ ofU16 depth ++ ofU16 pages
  | endPostamble postamble format padding =>
    ofI32 postamble ++ ofU8 format ++ List.replicate padding 223

/-- The bytes of an operation. -/
def Op.encode (op : Op) : List UInt8 :=
  UInt8.ofNat op.opcode.toNat :: op.payload

/-- The bytes of operations in order. -/
def encodeAll (ops : List Op) : List UInt8 :=
  ops.flatMap Op.encode

end DviMarkup.Dvi
