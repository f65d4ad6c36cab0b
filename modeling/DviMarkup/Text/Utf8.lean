/-
  UTF-8 text out of bytes that need not be well formed.

  The bytes of a comment, a font name or a special come from a file, so a
  decoder has to say what it makes of ill-formed ones.  It reads a sequence
  as far as it can still become a character; a sequence that breaks off
  yields one replacement character and reading goes on at the byte that broke
  it off.

  * `Utf8.lead?` gives, for a lead byte, the number of bytes that have to
    follow and the range of the first of them;
  * `Utf8.trail` is the longest stretch of fitting bytes after a lead byte;
  * `Utf8.decode` is the text of a byte list, `Utf8.encode` the bytes of a text.
-/

namespace DviMarkup.Utf8

/-- The character that stands for a sequence that breaks off. -/
def replacement : Char := '\uFFFD'

/-- What may follow a lead byte. -/
structure Lead where
  /-- The number of bytes that follow. -/
  count : Nat
  /-- The least first byte that may follow. -/
  low : UInt8
  /-- The greatest first byte that may follow. -/
  high : UInt8
  /-- The bits of the code point that the lead byte holds. -/
  bits : Nat

/-- What may follow the byte if it starts a longer sequence.  The narrow
    ranges keep out overlong forms, surrogates and numbers above U+10FFFF. -/
def lead? (b : UInt8) : Option Lead :=
  let n := b.toNat
  if n < 0xC2 then none
  else if n < 0xE0 then some ⟨1, 0x80, 0xBF, n - 0xC0⟩
  else if n = 0xE0 then some ⟨2, 0xA0, 0xBF, 0⟩
  else if n = 0xED then some ⟨2, 0x80, 0x9F, 0x0D⟩
  else if n < 0xF0 then some ⟨2, 0x80, 0xBF, n - 0xE0⟩
  else if n = 0xF0 then some ⟨3, 0x90, 0xBF, 0⟩
  else if n < 0xF4 then some ⟨3, 0x80, 0xBF, n - 0xF0⟩
  else if n = 0xF4 then some ⟨3, 0x80, 0x8F, 4⟩
  else none

/-- The longest stretch of at most `count` bytes that may follow, the first of
    them between `low` and `high`. -/
def trail : (count : Nat) → (low high : UInt8) → List UInt8 → List UInt8
  | 0, _, _, _ => []
  | _ + 1, _, _, [] => []
  | n + 1, low, high, b :: rest =>
    if low ≤ b ∧ b ≤ high then b :: trail n 0x80 0xBF rest else []

/-- The code point with the given leading bits and following bytes. -/
def codePoint (bits : Nat) (following : List UInt8) : Nat :=
  following.foldl (fun n b => 64 * n + b.toNat % 64) bits

/-- The characters of a byte list, with one replacement character for each
    sequence that breaks off. -/
def decodeChars : List UInt8 → List Char
  | [] => []
  | b :: rest =>
    if b < 0x80 then Char.ofNat b.toNat :: decodeChars rest
    else match lead? b with
      | none => replacement :: decodeChars rest
      | some l =>
        let following := trail l.count l.low l.high rest
        let c := if following.length = l.count then Char.ofNat (codePoint l.bits following)
          else replacement
        c :: decodeChars (rest.drop following.length)
termination_by bytes => bytes.length
decreasing_by
  all_goals
    simp only [List.length_drop, List.length_cons]
    omega

/-- The text of a byte list. -/
def decode (bytes : List UInt8) : String :=
  String.ofList (decodeChars bytes)

/-- The bytes of a text. -/
def encode (s : String) : List UInt8 :=
  s.toUTF8.toList

/-- The text of a byte list that is well formed throughout. -/
def decodeStrict? (bytes : List UInt8) : Option String :=
  let text := decode bytes
  if encode text = bytes then some text else none

end DviMarkup.Utf8
