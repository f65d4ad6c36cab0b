/-
  Operations in a form for people to read.

  An operation is described by its name and its operands.  Operands with names
  stand between braces, the others between parentheses, lists between brackets
  and texts between quotes.

  * `named` and `listed` lay out operands;
  * `Op.describe` is the description of an operation.
-/
import DviMarkup.Dvi.Op
import DviMarkup.Text.Quoted

namespace DviMarkup.Dvi

/-- A name with named operands. -/
def named (name : String) (operands : List (String × String)) : String :=
  name ++ " \x7b " ++ ", ".intercalate (operands.map fun o => o.1 ++ ": " ++ o.2) ++ " \x7d"

/-- Values between brackets. -/
def listed (values : List String) : String :=
  "[" ++ ", ".intercalate values ++ "]"

def Register.describe : Register → String
  | w => "W"
  | x => "X"
  | y => "Y"
  | z => "Z"

/-- The description of an operation. -/
def Op.describe : Op → String
  | typesetChar code advance =>
    named "TypesetChar" [("char", toString code.toNat), ("move_h", toString advance)]
  | typesetRule height width advance =>
    named "TypesetRule" [("height", toString height.toInt), ("width", toString width.toInt),
      ("move_h", toString advance)]
  | noOp => "NoOp"
  | beginPage parameters previous =>
    named "BeginPage" [
      ("parameters", listed (parameters.toList.map fun p => toString p.toInt)),
      ("previous_begin_page", toString previous.toInt)]
  | endPage => "EndPage"
  | push => "Push"
  | pop => "Pop"
  | right d => s!"Right({d.toInt})"
  | moveBy r => s!"Move({r.describe})"
  | setMoveBy r d => s!"SetVar({r.describe}, {d.toInt})"
  | down d => s!"Down({d.toInt})"
  | enableFont number => s!"EnableFont({number.toNat})"
  | special payload => "Special(" ++ listed (payload.map fun b => toString b.toNat) ++ ")"
  | defineFont number checksum atSize designSize area name =>
    named "DefineFont" [("number", toString number.toNat), ("checksum", toString checksum.toNat),
      ("at_size", toString atSize.toNat), ("design_size", toString designSize.toNat),
      ("area", Text.quoted area), ("name", Text.quoted name)]
  | preamble format numerator denominator magnification comment =>
    named "Preamble" [("dvi_format", toString format.toNat),
      ("unit_numerator", toString numerator.toNat),
      ("unit_denominator", toString denominator.toNat),
      ("magnification", toString magnification.toNat), ("comment", Text.quoted comment)]
  | beginPostamble finalPage numerator denominator magnification height width depth pages =>
    named "BeginPostamble" [("final_begin_page", toString finalPage.toInt),
      ("unit_numerator", toString numerator.toNat),
      ("unit_denominator", toString denominator.toNat),
      ("magnification", toString magnification.toNat),
      ("largest_height", toString height.toNat), ("largest_width", toString width.toNat),
      ("max_stack_depth", toString depth.toNat), ("num_pages", toString pages.toNat)]
  | endPostamble postamble format padding =>
    named "EndPostamble" [("postamble", toString postamble.toInt),
      ("dvi_format", toString format.toNat), ("num_223_bytes", toString padding)]

end DviMarkup.Dvi
