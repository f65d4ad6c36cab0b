/-
  Executing commands.

  * `Command.execute` is what a command does to a typesetter;
  * `executeAll` executes commands in order, up to the first failure.
-/
import DviMarkup.Command.Pipeline
import DviMarkup.PostScript.Session
import DviMarkup.Typesetter.Image

namespace DviMarkup

open Typesetter Scalar

variable {α : Type} [Scalar α] [Escaping]

/-- What a command does. -/
def Command.execute : Command → Action α Unit
  | .preamble numerator denominator magnification _ =>
    Typesetter.preamble numerator denominator magnification
  | .beginPage _ => Typesetter.beginPage
  | .endPage => Typesetter.endPage
  | .push => Typesetter.push
  | .pop => Typesetter.pop
  | .setText text => do Typesetter.moveRight (← Typesetter.putText text)
  | .putText text => discard (Typesetter.putText text)
  | .setRule height width => do
    Typesetter.putRule height width
    Typesetter.moveRight (ofInt width.toInt)
  | .putRule height width => Typesetter.putRule height width
  | .moveRight d => Typesetter.moveRight (ofInt d.toInt)
  | .moveDown d => Typesetter.moveDown (ofInt d.toInt)
  | .moveBy register amount =>
    modifyCore fun c => c.moveBy register (amount.map fun d => ofInt d.toInt)
  | .defineFont number definition => Typesetter.defineFont number definition
  | .enableFont number => Typesetter.enableFont number
  | .special _ | .beginPostamble | .endPostamble => return ()
  | .pushColor color => Typesetter.pushColor color
  | .popColor => Typesetter.popColor
  | .setPaper width height => Typesetter.setPaper (ofNumeral width) (ofNumeral height)
  | .rawSvg fragment => Typesetter.putSvg fragment
  | .postScript code => PostScript.execute code
  | .image attributes => Image.draw attributes

/-- Executes commands in order, up to the first failure, of a command or in the
    place of one. -/
def executeAll : List Item → Action α Unit
  | [] => return ()
  | .error failure :: _ => throw failure
  | .ok command :: rest => do
    command.execute
    executeAll rest

end DviMarkup
