/-
  Numbers as they are written: exact decimals, infinities and the undefined
  number.

  A numeral keeps the value that its digits spell, so that rounding is left to
  whoever computes with it.

  * `Numeral.mantissa?` reads digits with an optional point, at least one digit;
  * `Numeral.plain?` accepts an optional sign before them and nothing else;
  * `Numeral.parse?` also accepts an exponent and, in any case of letters,
    `inf`, `infinity` and `nan`.
-/

namespace DviMarkup

/-- A written number. -/
inductive Numeral where
  /-- `digits · 10 ^ exponent`, negated if `negative`; a zero has a sign too. -/
  | finite (negative : Bool) (digits : Nat) (exponent : Int)
  | infinite (negative : Bool)
  /-- The undefined number, which has a sign too. -/
  | undefined (negative : Bool)
deriving Repr, DecidableEq

namespace Numeral

/-- A whole number. -/
def ofInt (n : Int) : Numeral :=
  .finite (n < 0) n.natAbs 0

/-- A number with the given count of digits after the point. -/
def ofPlaces (digits places : Nat) : Numeral :=
  .finite false digits (-places)

/-- Whether a character is one of the ten digits. -/
def isDigit (c : Char) : Bool :=
  '0' ≤ c && c ≤ '9'

/-- The number that a list of digits spells. -/
def ofDigits (digits : List Char) : Nat :=
  digits.foldl (fun n c => 10 * n + (c.toNat - '0'.toNat)) 0

/-- A sign, if there is one, and the rest of the text. -/
def sign : List Char → Bool × List Char
  | '-' :: rest => (true, rest)
  | '+' :: rest => (false, rest)
  | s => (false, s)

/-- Digits with an optional point among them, before them or after them, at
    least one digit: the number without the point, the number of digits after
    the point, and the rest of the text. -/
def mantissa? (s : List Char) : Option (Nat × Nat × List Char) :=
  let whole := s.takeWhile isDigit
  let tail := s.dropWhile isDigit
  let (fraction, rest) := match tail with
    | '.' :: t => (t.takeWhile isDigit, t.dropWhile isDigit)
    | _ => ([], tail)
  if whole.isEmpty && fraction.isEmpty then none
  else some (ofDigits (whole ++ fraction), fraction.length, rest)

/-- An optional sign and digits with an optional point: `3`, `-1.5`, `.25`, `+2.`. -/
def plain? (s : List Char) : Option Numeral :=
  let (negative, unsigned) := sign s
  match mantissa? unsigned with
  | some (digits, places, []) => some (.finite negative digits (-places))
  | _ => none

/-- What may stand after the mantissa: nothing, or an exponent. -/
def exponent? : List Char → Option Int
  | [] => some 0
  | e :: rest =>
    let (negative, digits) := sign rest
    if (e = 'e' ∨ e = 'E') ∧ digits ≠ [] ∧ digits.all isDigit then
      some (if negative then -(ofDigits digits : Int) else ofDigits digits)
    else none

/-- A number in any of its spellings, without blanks around it. -/
def parse? (s : List Char) : Option Numeral :=
  let (negative, unsigned) := sign s
  let word := unsigned.map Char.toLower
  if word = "inf".toList ∨ word = "infinity".toList then some (.infinite negative)
  else if word = "nan".toList then some (.undefined negative)
  else do
    let (digits, places, rest) ← mantissa? unsigned
    let e ← exponent? rest
    return .finite negative digits (e - places)

end Numeral

end DviMarkup
