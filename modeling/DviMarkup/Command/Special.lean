/-
  Recognised specials.

  A special is recognised by how its payload begins.  Code and markup may be
  cut into several specials, so adjacent pieces are put together again.

  * `recognise` is a stage that gives the payloads with a certain beginning
    their meaning;
  * `paperStage`, `colorStage`, `postScriptStage`, `imageStage` and `svgStage`
    are the stages for the five kinds of specials;
  * `specialStages` is one after the other.
-/
import DviMarkup.Command.Basic
import DviMarkup.Command.Color
import DviMarkup.Stream.Stage

namespace DviMarkup

/-- Gives the specials that begin in a certain way a meaning, by what follows;
    those without one are dropped. -/
def recognise (beginning : String) (meaning : List Char → Option Item) : Stage Item Item :=
  Stage.filterMap fun
    | .ok (.special payload) =>
      match beginning.toList.isPrefixOf? payload.toList with
      | some rest => meaning rest
      | none => some (.ok (.special payload))
    | item => some item

/-- Puts the texts of adjacent commands of one kind together: `text?` are the
    texts of that kind and `join` makes an item of them. -/
def joinAdjacent {τ : Type} (text? : Command → Option τ) (join : List τ → Command) :
    Stage Item Item :=
  let textOf? : Item → Option τ
    | .ok command => text? command
    | .error _ => none
  Stage.mergeRuns (fun item => (textOf? item).isSome) fun run => [.ok (join (run.filterMap textOf?))]

/-! ## Paper -/

/-- A size with its unit, in points. -/
def points? (size : List Char) : Option Numeral := do
  let number ← Text.dropEnding? "pt".toList (Text.trim size)
  Numeral.parse? (Text.trim number)

/-- The size of the paper out of `<width>pt,<height>pt`. -/
def paper (sizes : List Char) : Item :=
  match (Text.splitAt ',' sizes).mapM points? with
  | some [width, height] => .ok (.setPaper width height)
  | _ => .error (.papersize (String.ofList sizes))

/-- Specials that set the size of the paper. -/
def paperStage : Stage Item Item :=
  recognise "papersize=" fun sizes => some (paper sizes)

/-! ## Colours -/

/-- What becomes of the colour: `push` and a specification, or `pop`; nothing
    else is understood. -/
def colorChange (directive : List Char) : Option Item :=
  match "push ".toList.isPrefixOf? directive with
  | some spec => some (.ok (.pushColor (cssColor spec)))
  | none => if "pop".toList.isPrefixOf directive then some (.ok .popColor) else none

/-- Specials that change the colour. -/
def colorStage : Stage Item Item :=
  recognise "color " colorChange

/-! ## Code -/

/-- Specials with code. -/
def postScriptStage : Stage Item Item :=
  (recognise "ps: " fun code => some (.ok (.postScript (String.ofList code)))).andThen <|
    joinAdjacent (fun | .postScript code => some code | _ => none)
      fun codes => .postScript (" ".intercalate codes)

/-! ## Images -/

/-- Whether a special describes an image, in small or capital letters. -/
def isImage (payload : String) : Bool :=
  (payload.toList.take 7).map Char.toLower = "psfile=".toList

/-- Specials that describe an image; the name of the file is one of the
    attributes. -/
def imageStage : Stage Item Item :=
  Stage.map fun
    | .ok (.special payload) =>
      if isImage payload then .ok (.image payload) else .ok (.special payload)
    | item => item

/-! ## Markup -/

/-- Markup without the places where it may be broken into lines. -/
def withoutBreaks (markup : List Char) : List Char :=
  Text.replaceAll '\x7b' "?nl\x7d".toList [] markup

/-- Specials with markup. -/
def svgStage : Stage Item Item :=
  (recognise "dvisvgm:raw " fun markup => some (.ok (.rawSvg (String.ofList markup)))).andThen <|
    joinAdjacent (fun | .rawSvg fragment => some fragment | _ => none)
      fun fragments => .rawSvg (String.ofList (withoutBreaks (String.join fragments).toList))

/-! ## All of them -/

/-- The stages for specials, one after the other. -/
def specialStages : Stage Item Item :=
  paperStage |>.andThen colorStage |>.andThen postScriptStage |>.andThen imageStage
    |>.andThen svgStage

end DviMarkup
