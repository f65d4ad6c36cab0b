/-
  Words of several bytes, most significant byte first.

  * `BigEndian.unsigned` and `BigEndian.signed` are the numbers that a byte
    list spells, the latter in two's complement;
  * `BigEndian.ofNat` and `BigEndian.ofInt` are the spellings in a given
    number of bytes.
-/

namespace DviMarkup.BigEndian

/-- The number that the bytes spell. -/
def unsigned (bytes : List UInt8) : Nat :=
  bytes.foldl (fun n b => 256 * n + b.toNat) 0

/-- The number that the bytes spell in two's complement. -/
def signed (bytes : List UInt8) : Int :=
  let n := unsigned bytes
  let count := Nat.pow 256 bytes.length
  if 2 * n < count then n else n - count

/-- The low bytes of a number, `count` of them. -/
def ofNat : (count : Nat) → Nat → List UInt8
  | 0, _ => []
  | count + 1, n => ofNat count (n / 256) ++ [UInt8.ofNat n]

/-- The low bytes of a number in two's complement, `count` of them. -/
def ofInt (count : Nat) (n : Int) : List UInt8 :=
  ofNat count (n % Nat.pow 256 count).toNat

end DviMarkup.BigEndian
