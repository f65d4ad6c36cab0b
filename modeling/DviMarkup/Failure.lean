/-
  Why a document cannot be converted.

  * `Failure` is a cause;
  * `Failure.message` is its text;
  * `Failure.causes` are the texts of the failures under it that the text
    repeats.
-/
import DviMarkup.Dvi.Op
import DviMarkup.Font.Tfm
import DviMarkup.PostScript.Lexeme
import DviMarkup.Text.Quoted

namespace DviMarkup

/-- A cause why a document cannot be converted. -/
inductive Failure where
  /-- The operations end with a fault. -/
  | dvi (fault : Dvi.Fault)
  /-- A file cannot be read. -/
  | io (reason : String)
  /-- No file has the metrics of the font. -/
  | fontNotFound (font : String) (searched : List String)
  /-- The metrics of the font are faulty. -/
  | metrics (font : String) (fault : Tfm.Fault)
  /-- The number was not given to a font. -/
  | undefinedFont (number : UInt32)
  | noActiveFont
  /-- The font has no character with the code. -/
  | missingGlyph (font : String) (code : UInt8)
  /-- The font's encoding has no entry for the code. -/
  | missingEncoding (font : String) (code : UInt8)
  /-- The code does not fit into a byte. -/
  | charOutOfRange (code : UInt32)
  | positionStackUnderflow
  | colorStackUnderflow
  /-- The sizes of the paper cannot be read. -/
  | papersize (sizes : String)
  | postScript (fault : PostScript.Fault)
  /-- The encodings cannot be read. -/
  | encodings
deriving Repr, DecidableEq

namespace Failure

def message : Failure → String
  | dvi fault => fault.message
  | io reason => s!"I/O error: {reason}"
  | fontNotFound font searched =>
    s!"no metrics found for font `{font}` (searched {Text.quotedList searched})"
  | metrics font fault => s!"failed to load metrics for font `{font}`: {fault.message}"
  | undefinedFont number => s!"font number {number} was enabled before it was defined"
  | noActiveFont => "text was typeset before any font was enabled"
  | missingGlyph font code => s!"font `{font}` has no metrics for character {code}"
  | missingEncoding font code => s!"no encoding entry for character {code} in font `{font}`"
  | charOutOfRange code => s!"character code {code} is out of range"
  | positionStackUnderflow => "pop with an empty position stack"
  | colorStackUnderflow => "color pop with an empty color stack"
  | papersize sizes => s!"invalid papersize special `{sizes}`"
  | postScript fault => s!"PostScript error: {fault.message}"
  | encodings => "invalid encoding table"

/-- The texts of the causes under a failure. -/
def causes : Failure → List String
  | dvi (.unreadable reason) => [reason]
  | io reason => [reason]
  | metrics _ fault => [fault.message]
  | postScript fault => [fault.message]
  | _ => []

end Failure

end DviMarkup
