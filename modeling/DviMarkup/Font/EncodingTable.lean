/-
  Encodings out of their written form.

  The form is an object that gives each font an object that gives each code, a
  decimal number between quotes, a code point: a subset of JSON, with its
  blanks, escapes and numbers.

  * `Written α` reads a value off the front of a text;
  * `string`, `natural` and `object` read the values of the form;
  * `Encodings.parse?` reads a whole text, `Encodings.ofBytes?` its bytes;
  * `EncodingReader` is a reader of files, a parameter of all that reads them.
-/
import DviMarkup.Font.Encoding
import DviMarkup.Text.Utf8

namespace DviMarkup.EncodingTable

/-- A reader of values: a value and the text after it, or nothing. -/
abbrev Written := StateT (List Char) Option

/-! ## Numbers -/

def isDigit (c : Char) : Bool := '0' ≤ c && c ≤ '9'

/-- The number that digits spell after those that spell `n`, and the text after
    them. -/
def digits (n : Nat) : List Char → Nat × List Char
  | c :: rest => if isDigit c then digits (10 * n + (c.toNat - '0'.toNat)) rest else (n, c :: rest)
  | [] => (n, [])

/-- A number without leading zeros that is at most `greatest`. -/
def natural (greatest : Nat) : Written Nat
  | '0' :: rest => some (0, rest)
  | c :: rest =>
    if isDigit c then
      let (n, rest) := digits 0 (c :: rest)
      if n ≤ greatest then some (n, rest) else none
    else none
  | [] => none

/-! ## Strings -/

def hexDigit? (c : Char) : Option Nat :=
  if isDigit c then some (c.toNat - '0'.toNat)
  else if 'a' ≤ c ∧ c ≤ 'f' then some (c.toNat - 'a'.toNat + 10)
  else if 'A' ≤ c ∧ c ≤ 'F' then some (c.toNat - 'A'.toNat + 10)
  else none

/-- The number that four digits in base sixteen spell. -/
def hexNumber? (a b c d : Char) : Option Nat := do
  return 4096 * (← hexDigit? a) + 256 * (← hexDigit? b) + 16 * (← hexDigit? c) + (← hexDigit? d)

/-- The character that a backslash before another stands for. -/
def escape? : Char → Option Char
  | '"' => some '"'
  | '\\' => some '\\'
  | '/' => some '/'
  | 'b' => some '\x08'
  | 'f' => some '\x0C'
  | 'n' => some '\n'
  | 'r' => some '\r'
  | 't' => some '\t'
  | _ => none

/-- The character that a number between U+D800 and U+DBFF and one between
    U+DC00 and U+DFFF stand for together. -/
def pair? (high low : Nat) : Option Char :=
  if 0xD800 ≤ high ∧ high < 0xDC00 ∧ 0xDC00 ≤ low ∧ low < 0xE000 then
    some (Char.ofNat (0x10000 + 0x400 * (high - 0xD800) + (low - 0xDC00)))
  else none

/-- The characters up to the closing quote, and the text after it. -/
def characters : List Char → Option (List Char × List Char)
  | [] => none
  | '"' :: rest => some ([], rest)
  | '\\' :: 'u' :: a :: b :: c :: d :: rest => do
    let n ← hexNumber? a b c d
    if n.isValidChar then
      let (cs, tail) ← characters rest
      return (Char.ofNat n :: cs, tail)
    else match rest with
      | '\\' :: 'u' :: a' :: b' :: c' :: d' :: rest' =>
        let x ← pair? n (← hexNumber? a' b' c' d')
        let (cs, tail) ← characters rest'
        return (x :: cs, tail)
      | _ => none
  | '\\' :: e :: rest => do
    let c ← escape? e
    let (cs, tail) ← characters rest
    return (c :: cs, tail)
  | c :: rest =>
    if c < ' ' ∨ c = '\\' then none
    else do
      let (cs, tail) ← characters rest
      return (c :: cs, tail)

/-- A text between quotes. -/
def string : Written String
  | '"' :: rest => (characters rest).map fun (cs, tail) => (String.ofList cs, tail)
  | _ => none

/-! ## Objects -/

def isBlank (c : Char) : Bool :=
  c = ' ' || c = '\n' || c = '\t' || c = '\r'

/-- Passes over blanks. -/
def blanks : Written Unit := fun s => some ((), s.dropWhile isBlank)

/-- Passes over one character, which has to be the given one. -/
def mark (c : Char) : Written Unit
  | d :: rest => if d = c then some ((), rest) else none
  | [] => none

/-- A key and its value. -/
def member {κ β : Type} (key : Written κ) (value : Written β) : Written (κ × β) := do
  blanks
  let k ← key
  blanks
  mark ':'
  blanks
  let v ← value
  blanks
  return (k, v)

/-- At most `count` members up to the closing brace, at least one. -/
def members {κ β : Type} (key : Written κ) (value : Written β) :
    (count : Nat) → Written (List (κ × β))
  | 0 => failure
  | count + 1 => do
    let m ← member key value
    match ← get with
    | '\x7d' :: rest => set rest; return [m]
    | ',' :: rest => set rest; return m :: (← members key value count)
    | _ => failure

/-- A table between braces, in which the last value of a key counts. -/
def object {κ β : Type} [BEq κ] (key : Written κ) (value : Written β) :
    Written (List (κ × β)) := do
  mark '\x7b'
  blanks
  match ← get with
  | '\x7d' :: rest => set rest; return []
  | s => return Table.ofPairs (← members key value s.length)

/-- A code between quotes. -/
def code : Written UInt8 := do
  mark '"'
  let n ← natural 255
  mark '"'
  return UInt8.ofNat n

/-- A code point, which need not be that of a character. -/
def codePoint : Written UInt32 :=
  UInt32.ofNat <$> natural 0xFFFFFFFF

end DviMarkup.EncodingTable

namespace DviMarkup

open EncodingTable in
/-- The encodings that a text holds. -/
def Encodings.parse? (text : List Char) : Option Encodings :=
  let whole : Written Encodings := do
    blanks
    let fonts ← object string (object code codePoint)
    blanks
    return { fonts }
  match whole.run text with
  | some (e, []) => some e
  | _ => none

/-- The encodings that a file holds. -/
def Encodings.ofBytes? (bytes : List UInt8) : Option Encodings := do
  let text ← Utf8.decodeStrict? bytes
  Encodings.parse? text.toList

/-- A reader of files with encodings, which is part of a library. -/
class EncodingReader where
  read? : List UInt8 → Option Encodings

/-- The reader of the program. -/
instance (priority := low) EncodingReader.table : EncodingReader where
  read? := Encodings.ofBytes?

end DviMarkup
