/-
  Texts in double quotes, as they stand in descriptions and messages.

  A quoted text can be read on one line: a double quote and a backslash get a
  backslash before them, the common controls have names of their own, and what
  cannot be seen on its own is spelled by its number in base sixteen.

  * `quotedChar` is the spelling of one character, `quoted` of a text;
  * `quotedList` is the spelling of a list of texts.
-/
import DviMarkup.Text.Shown

namespace DviMarkup.Text

/-- The number in base sixteen, in small letters and without leading zeros. -/
def hexDigits (n : Nat) : List Char :=
  Nat.toDigits 16 n

/-- The spelling of a character between double quotes. -/
def quotedChar (c : Char) : List Char :=
  if c = '"' then ['\\', '"']
  else if c = '\\' then ['\\', '\\']
  else if c = '\n' then ['\\', 'n']
  else if c = '\r' then ['\\', 'r']
  else if c = '\t' then ['\\', 't']
  else if c.toNat = 0 then ['\\', '0']
  else if isShown c then [c]
  else "\\u\x7b".toList ++ hexDigits c.toNat ++ "\x7d".toList

/-- The text in double quotes. -/
def quoted (s : String) : String :=
  String.ofList ('"' :: s.toList.flatMap quotedChar ++ ['"'])

/-- The texts in double quotes, between brackets and separated by commas. -/
def quotedList (texts : List String) : String :=
  "[" ++ ", ".intercalate (texts.map quoted) ++ "]"

end DviMarkup.Text
