/-
  The meaning of character codes: a table for each font, from codes to code
  points.

  * `Encodings.lookup` is the character that a table gives;
  * `legacyChar` is the character for a code that has no entry: the codes of
    control characters are moved out of the way;
  * `Encodings.resolve?` and `Encodings.glyph` fall back on it in lenient mode
    only, or always.
-/
import DviMarkup.Font.Basic
import DviMarkup.Table

namespace DviMarkup

/-- For each font by name, a table from codes to code points. -/
structure Encodings where
  fonts : List (String × List (UInt8 × UInt32)) := []
deriving Repr, DecidableEq

/-- The character with a code point, if there is one. -/
def charOfCodePoint? (n : UInt32) : Option Char :=
  if n.toNat.isValidChar then some (Char.ofNat n.toNat) else none

/-- The character for a code without an entry.  The controls, the blank and the
    code 127 go to printable characters from U+00A1 on, all others to the
    characters with the same number. -/
def legacyChar (code : UInt8) : Char :=
  let n := code.toNat
  Char.ofNat <|
    if n ≤ 9 then 161 + n
    else if n ≤ 19 then 173 + (n - 10)
    else if n = 20 then 0x2219
    else if n ≤ 32 then 184 + (n - 21)
    else if n = 127 then 196
    else n

namespace Encodings

/-- The encodings in which the code of the font is the character. -/
def insert (e : Encodings) (font : String) (code : UInt8) (c : Char) : Encodings :=
  let table := (e.fonts.lookup font).getD []
  { fonts := Table.assign font (Table.assign code (UInt32.ofNat c.toNat) table) e.fonts }

/-- The character of a code, if the font's table has a valid entry. -/
def lookup (e : Encodings) (font : String) (code : UInt8) : Option Char := do
  let table ← e.fonts.lookup font
  let n ← table.lookup code
  charOfCodePoint? n

/-- The character of a code, or nothing if it has no entry and may not be
    replaced. -/
def resolve? (e : Encodings) (mode : Strictness) (font : String) (code : UInt8) : Option Char :=
  match e.lookup font code, mode with
  | some c, _ => some c
  | none, .strict => none
  | none, .lenient => some (legacyChar code)

/-- The character of a code, replaced if it has no entry. -/
def glyph (e : Encodings) (font : String) (code : UInt8) : Char :=
  (e.lookup font code).getD (legacyChar code)

/-- The characters of a text, or the first code that has none. -/
def resolveAll (e : Encodings) (mode : Strictness) (font : String) :
    List UInt8 → Except UInt8 (List Char)
  | [] => .ok []
  | code :: text =>
    match e.resolve? mode font code with
    | none => .error code
    | some c => (resolveAll e mode font text).map (c :: ·)

end Encodings

end DviMarkup
