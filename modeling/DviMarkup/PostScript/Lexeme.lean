/-
  The lexemes of PostScript code.

  Code is scanned byte by byte, since all characters that matter are single
  bytes.  A lexeme is known by the places in the code where its text starts and
  stops; a backslash takes the byte after it along, so that this byte neither
  ends nor opens anything.

  * `Fault` is why code cannot be run, here or later;
  * `rawLength`, `nestedLength` and `commentLength` tell how many bytes belong
    to what has begun;
  * `scan` gives the lexemes of code in order, up to the first fault;
  * `Token.ofLexeme` is the meaning of a lexeme.
-/
import DviMarkup.Number.Numeral
import DviMarkup.Text.Utf8

namespace DviMarkup.PostScript

/-- Why code cannot be run. -/
inductive Fault where
  | unterminatedString
  | unterminatedProcedure
  /-- The code ends with a backslash. -/
  | trailingEscape
  | unknownOperator (name : String)
  /-- The operator needs more operands. -/
  | stackUnderflow (operator : String)
  /-- The operator needs an operand that is a number. -/
  | notANumber (operator : String)
  /-- There is no mark to end an array at. -/
  | unmatchedArrayEnd
  /-- There is no saved transform to restore. -/
  | nothingSaved
deriving Repr, DecidableEq

def Fault.message : Fault → String
  | .unterminatedString => "unterminated string"
  | .unterminatedProcedure => "unterminated procedure"
  | .trailingEscape => "escape character at end of input"
  | .unknownOperator name => s!"unknown operator `{name}`"
  | .stackUnderflow operator => s!"`{operator}` needs more operands than are on the stack"
  | .notANumber operator => s!"`{operator}` expects a number operand"
  | .unmatchedArrayEnd => "`]` without a matching `[`"
  | .nothingSaved => "grestore with no saved graphics state"

/-! ## Characters -/

/-- The byte of a character that needs only one. -/
def byte (c : Char) : UInt8 := UInt8.ofNat c.toNat

/-- Whether a byte separates lexemes: blank, tab, new line, return, form feed
    or null. -/
def isBlank (b : UInt8) : Bool :=
  b = 0x20 || b = 0x09 || b = 0x0A || b = 0x0D || b = 0x0C || b = 0x00

/-- Whether a byte begins a lexeme or a comment wherever it stands. -/
def isDelimiter (b : UInt8) : Bool :=
  "()<>[]\x7b\x7d/%".toList.any (byte · = b)

/-- Whether a byte ends a comment. -/
def isLineEnd (b : UInt8) : Bool :=
  b = 0x0A || b = 0x0D

def backslash : UInt8 := byte '\\'

/-! ## Lengths -/

/-- The number of bytes up to the first that is a blank or a delimiter and has
    no backslash before it. -/
def rawLength : List UInt8 → Except Fault Nat
  | [] => .ok 0
  | b :: rest =>
    if isBlank b ∨ isDelimiter b then .ok 0
    else if b = backslash then
      match rest with
      | [] => .error .trailingEscape
      | _ :: rest' => (rawLength rest').map (· + 2)
    else (rawLength rest).map (· + 1)

/-- The number of bytes up to and with the one that closes the last of `depth`
    pairs that are open, besides the one that began. -/
def nestedLength (opening closing : UInt8) (unclosed : Fault) :
    (depth : Nat) → List UInt8 → Except Fault Nat
  | _, [] => .error unclosed
  | depth, b :: rest =>
    if b = backslash then
      match rest with
      | [] => .error .trailingEscape
      | _ :: rest' => (nestedLength opening closing unclosed depth rest').map (· + 2)
    else if b = opening then (nestedLength opening closing unclosed (depth + 1) rest).map (· + 1)
    else if b = closing then
      match depth with
      | 0 => .ok 1
      | depth + 1 => (nestedLength opening closing unclosed depth rest).map (· + 1)
    else (nestedLength opening closing unclosed depth rest).map (· + 1)

/-- The number of bytes up to and with the one that ends the comment. -/
def commentLength : List UInt8 → Nat
  | [] => 0
  | b :: rest => if isLineEnd b then 1 else commentLength rest + 1

/-! ## Lexemes -/

/-- What a lexeme is, by how it begins. -/
inductive Kind where
  /-- Text between parentheses. -/
  | string
  /-- Text between braces. -/
  | procedure
  /-- Text after a slash. -/
  | name
  | arrayStart
  | arrayEnd
  /-- Any other text. -/
  | raw
deriving Repr, DecidableEq

/-- A lexeme: what it is, and where its text starts and stops. -/
structure Lexeme where
  kind : Kind
  start : Nat
  stop : Nat
deriving Repr, DecidableEq

/-- The lexemes of the code that begins at the place `pos`, up to the first fault. -/
def scan (pos : Nat) : List UInt8 → List (Except Fault Lexeme)
  | [] => []
  | b :: rest =>
    if isBlank b then scan (pos + 1) rest
    else if b = byte '%' then
      let n := commentLength rest
      scan (pos + 1 + n) (rest.drop n)
    else if b = byte '\x7b' then
      match nestedLength b (byte '\x7d') .unterminatedProcedure 0 rest with
      | .error fault => [.error fault]
      | .ok n => .ok ⟨.procedure, pos + 1, pos + n⟩ :: scan (pos + 1 + n) (rest.drop n)
    else if b = byte '(' then
      match nestedLength b (byte ')') .unterminatedString 0 rest with
      | .error fault => [.error fault]
      | .ok n => .ok ⟨.string, pos + 1, pos + n⟩ :: scan (pos + 1 + n) (rest.drop n)
    else if b = byte '[' then .ok ⟨.arrayStart, pos, pos + 1⟩ :: scan (pos + 1) rest
    else if b = byte ']' then .ok ⟨.arrayEnd, pos, pos + 1⟩ :: scan (pos + 1) rest
    else if b = byte '/' then
      match rawLength rest with
      | .error fault => [.error fault]
      | .ok n => .ok ⟨.name, pos + 1, pos + 1 + n⟩ :: scan (pos + 1 + n) (rest.drop n)
    else if b = backslash then
      match rest with
      | [] => [.error .trailingEscape]
      | _ :: rest' =>
        match rawLength rest' with
        | .error fault => [.error fault]
        | .ok n => .ok ⟨.raw, pos, pos + 2 + n⟩ :: scan (pos + 2 + n) (rest'.drop n)
    else
      match rawLength rest with
      | .error fault => [.error fault]
      | .ok n => .ok ⟨.raw, pos, pos + 1 + n⟩ :: scan (pos + 1 + n) (rest.drop n)
termination_by bytes => bytes.length
decreasing_by all_goals simp_wf <;> omega

/-- The lexemes of code, up to the first fault. -/
def lexemes (code : List UInt8) : List (Except Fault Lexeme) :=
  scan 0 code

/-- The bytes of a lexeme's text. -/
def Lexeme.bytes (l : Lexeme) (code : List UInt8) : List UInt8 :=
  (code.drop l.start).take (l.stop - l.start)

/-! ## Tokens -/

/-- What a lexeme means. -/
inductive Token where
  | number (value : Numeral)
  | string (text : String)
  | procedure (text : String)
  | name (text : String)
  | arrayStart
  | arrayEnd
  | operator (name : String)
deriving Repr, DecidableEq

/-- The meaning of a lexeme with the given text.  A raw text that is written as
    a number is one; any other is the name of an operator. -/
def Token.ofText (text : String) : Kind → Token
  | .string => .string text
  | .procedure => .procedure text
  | .name => .name text
  | .arrayStart => .arrayStart
  | .arrayEnd => .arrayEnd
  | .raw =>
    match Numeral.plain? text.toList with
    | some n => .number n
    | none => .operator text

/-- The meaning of a lexeme of the code. -/
def Token.ofLexeme (code : List UInt8) (l : Lexeme) : Token :=
  .ofText (Utf8.decode (l.bytes code)) l.kind

/-- The tokens of code, up to the first fault. -/
def tokens (code : String) : List (Except Fault Token) :=
  let bytes := Utf8.encode code
  (lexemes bytes).map fun l => l.map (Token.ofLexeme bytes)

end DviMarkup.PostScript
