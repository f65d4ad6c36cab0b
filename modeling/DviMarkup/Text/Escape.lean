/-
  Escaping of text for markup.

  How texts are escaped is not decided here but in a library.

  * `Escaping` are the two functions of such a library, a parameter of all that
    writes markup;
  * `Text.escapeText` and `Text.escapeAttribute` are those that the program uses,
    and `Escaping.entities` is the parameter for it.
-/

namespace DviMarkup

/-- The escaping of texts for markup.  Being inferred, it need not be named by
    everything that comes to write some. -/
class Escaping where
  /-- A text for a place between tags. -/
  content : String → String
  /-- A text for an attribute value in double quotes. -/
  value : String → String

namespace Text

/-- A character between tags: `&`, `<` and `>` become entities. -/
def escapeTextChar (c : Char) : List Char :=
  if c = '&' then "&amp;".toList
  else if c = '<' then "&lt;".toList
  else if c = '>' then "&gt;".toList
  else [c]

/-- A character of an attribute value: also the double quote becomes an entity. -/
def escapeAttributeChar (c : Char) : List Char :=
  if c = '"' then "&quot;".toList else escapeTextChar c

/-- A text for a place between tags. -/
def escapeText (s : String) : String :=
  String.ofList (s.toList.flatMap escapeTextChar)

/-- A text for an attribute value in double quotes. -/
def escapeAttribute (s : String) : String :=
  String.ofList (s.toList.flatMap escapeAttributeChar)

end Text

/-- The escaping of the program. -/
instance (priority := low) Escaping.entities : Escaping where
  content := Text.escapeText
  value := Text.escapeAttribute

end DviMarkup
