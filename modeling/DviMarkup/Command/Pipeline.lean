/-
  Commands out of operations.

  * `commandStage` gives each operation its command and `textStage` puts
    adjacent characters together;
  * `pipeline` is these and the stages for specials, one after the other.
-/
import DviMarkup.Command.Special

namespace DviMarkup

/-- The commands of operations; faults stay in their places. -/
def commandStage : Stage (Except Dvi.Fault Dvi.Op) Item :=
  Stage.filterMap Item.ofOp?

/-- Texts that are typeset one after the other are one text. -/
def textStage : Stage Item Item :=
  joinAdjacent (fun | .setText text => some text | _ => none) fun texts => .setText texts.flatten

/-- The way from operations to commands. -/
def pipeline : Stage (Except Dvi.Fault Dvi.Op) Item :=
  commandStage |>.andThen textStage |>.andThen specialStages

end DviMarkup
