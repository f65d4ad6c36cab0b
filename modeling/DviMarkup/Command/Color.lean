/-
  Colours as specials give them and as markup needs them.

  * `cssColor` is the colour of a specification: a name for black and white,
    six digits for other grays and for mixtures of red, green and blue, and
    black for everything else.
-/
import DviMarkup.Number.Binary64
import DviMarkup.Text.Blank
import DviMarkup.Text.Quoted

namespace DviMarkup

/-- A component between zero and one as a byte, rounded to nearest; what is
    outside is brought to the nearer end, and nothing is made of an undefined one. -/
def colorByte : Binary64 → UInt8
  | .undefined _ => 0
  | .number component _ =>
    let n := (component * 255.0).round
    if n < 0.0 then 0 else if 255.0 < n then 255 else n.toUInt8

/-- A component as two digits in base sixteen. -/
def colorDigits (component : Numeral) : List Char :=
  let n := (colorByte (Binary64.ofNumeral component)).toNat
  Text.hexDigits (n / 16) ++ Text.hexDigits (n % 16)

/-- The colour that three components mix. -/
def mixture (red green blue : Numeral) : String :=
  String.ofList ('#' :: colorDigits red ++ colorDigits green ++ colorDigits blue)

/-- The components of a specification, if it is one of gray or of red, green
    and blue. -/
def components? (spec : List Char) : Option (List Numeral) :=
  match "rgb ".toList.isPrefixOf? spec with
  | some rest => (Text.words rest).mapM Numeral.parse?
  | none =>
    match "gray ".toList.isPrefixOf? spec with
    | some rest => (Numeral.parse? (Text.trim rest)).map fun gray => [gray, gray, gray]
    | none => none

/-- The colour of a specification. -/
def cssColor (spec : List Char) : String :=
  if spec = "gray 0".toList then "black"
  else if spec = "gray 1".toList then "white"
  else match components? spec with
    | some [red, green, blue] => mixture red green blue
    | _ => "black"

end DviMarkup
