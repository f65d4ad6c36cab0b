/-
  Running PostScript code on a typesetter.

  Only the operators for moving, for transforms and for arithmetic are known.
  Code that fails leaves the operands and the typesetter as they were when it
  failed.

  * `Object` is an operand;
  * `Session` are the operands and the typesetter, `Session.Action` is something
    that is done with both;
  * `Session.operator` and `Session.token` are single steps;
  * `Session.run` runs code.
-/
import DviMarkup.PostScript.Lexeme
import DviMarkup.Typesetter.Basic

namespace DviMarkup.PostScript

/-- An operand. -/
inductive Object (α : Type) where
  | number (value : α)
  | string (text : String)
  | array (elements : List (Object α))
  /-- The beginning of an array. -/
  | mark
  | name (text : String)
  | procedure (text : String)
deriving Repr

/-- Whether an operand is a mark. -/
def Object.isMark {α : Type} : Object α → Bool
  | mark => true
  | _ => false

/-- The operands, the latest first, and the typesetter. -/
structure Session (α : Type) where
  stack : List (Object α)
  typesetter : Typesetter α

namespace Session

/-- Something that is done with the operands and the typesetter. -/
abbrev Action (α β : Type) := ExceptT Failure (StateM (Session α)) β

variable {α : Type} [Scalar α]

/-! ## Operands -/

/-- Fails for a reason of its own. -/
def fail {β : Type} (fault : Fault) : Action α β :=
  throw (.postScript fault)

def push (o : Object α) : Action α Unit :=
  modify fun s => { s with stack := o :: s.stack }

/-- Takes an operand for an operator. -/
def pop (operator : String) : Action α (Object α) := do
  match (← get).stack with
  | [] => fail (.stackUnderflow operator)
  | o :: stack =>
    modify fun s => { s with stack }
    return o

/-- Takes a number for an operator. -/
def popNumber (operator : String) : Action α α := do
  match ← pop operator with
  | .number n => return n
  | _ => fail (.notANumber operator)

/-- Takes two numbers for an operator: the upper operand is the second. -/
def popPair (operator : String) : Action α (α × α) := do
  let y ← popNumber operator
  let x ← popNumber operator
  return (x, y)

/-- Replaces the operands above the last mark, and the mark, by an array of them. -/
def closeArray : Action α Unit := do
  let stack := (← get).stack
  let elements := stack.takeWhile (!·.isMark)
  match stack.dropWhile (!·.isMark) with
  | [] => fail .unmatchedArrayEnd
  | _ :: rest => modify fun s => { s with stack := .array elements.reverse :: rest }

/-! ## Steps -/

/-- Does something with the typesetter. -/
def onTypesetter {β : Type} (action : DviMarkup.Action α β) : Action α β := fun s =>
  let (result, typesetter) := action.run.run s.typesetter
  (result, { s with typesetter })

/-- Replaces two numbers by a result. -/
def arithmetic (operator : String) (f : α → α → α) : Action α Unit := do
  let (x, y) ← popPair operator
  push (.number (f x y))

/-- Runs an operator. -/
def operator (name : String) : Action α Unit := do
  match name with
  | "pop" => discard (pop name)
  | "exch" =>
    let x ← pop name
    let y ← pop name
    push x
    push y
  | "dup" =>
    match (← get).stack with
    | [] => fail (.stackUnderflow name)
    | o :: _ => push o
  | "mark" => push .mark
  | "neg" =>
    let x ← popNumber name
    push (.number (-x))
  | "add" => arithmetic name (· + ·)
  | "sub" => arithmetic name (· - ·)
  | "mul" => arithmetic name (· * ·)
  | "div" => arithmetic name (· / ·)
  | "gsave" => onTypesetter Typesetter.saveTransform
  | "grestore" => onTypesetter Typesetter.restoreTransform
  | "currentpoint" =>
    let (x, y) := (← get).typesetter.currentPoint
    push (.number x)
    push (.number y)
  | "moveto" =>
    let (x, y) ← popPair name
    onTypesetter (Typesetter.setCurrentPoint x y)
  | "scale" =>
    let (x, y) ← popPair name
    onTypesetter (Typesetter.transform (·.scale x y))
  | "translate" =>
    let (x, y) ← popPair name
    onTypesetter (Typesetter.transform (·.translate x y))
  | "rotate" =>
    let degrees ← popNumber name
    onTypesetter (Typesetter.transform (·.rotate degrees))
  | _ => fail (.unknownOperator name)

/-- Runs a token. -/
def token : Token → Action α Unit
  | .number value => push (.number (Scalar.ofNumeral value))
  | .string text => push (.string text)
  | .procedure text => push (.procedure text)
  | .name text => push (.name text)
  | .arrayStart => push .mark
  | .arrayEnd => closeArray
  | .operator name => operator name

/-- Runs tokens up to the first fault. -/
def runTokens : List (Except Fault Token) → Action α Unit
  | [] => return ()
  | .error fault :: _ => fail fault
  | .ok t :: rest => do
    token t
    runTokens rest

/-- Runs code. -/
def run (code : String) : Action α Unit :=
  runTokens (tokens code)

end Session

/-- Runs code without operands on a typesetter. -/
def execute {α : Type} [Scalar α] (code : String) : Action α Unit := fun typesetter =>
  let (result, s) := (Session.run code).run.run { stack := [], typesetter }
  (result, s.typesetter)

end DviMarkup.PostScript
