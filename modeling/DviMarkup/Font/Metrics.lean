/-
  The metrics of a font: the dimensions of its characters, the program for
  kerns and ligatures, and its parameters.

  All dimensions are fractions of the design size with twenty fractional bits.

  * `Metrics` are a font's metrics, `Metrics.character` those of a character;
  * `Walk` is a walk through a program, `Walk.next` its step;
  * `Metrics.program` are the instructions that are met from one on;
  * `Metrics.kern` is the kern between two characters.
-/

namespace DviMarkup

/-- The dimensions of a character. -/
structure CharMetrics where
  width : Int32
  height : Int32
  depth : Int32
  italicCorrection : Int32
  /-- Where the character's program starts, if it has one. -/
  program : Option Nat
deriving Repr, DecidableEq

/-- The dimensions of a character that has none. -/
def CharMetrics.blank : CharMetrics :=
  ⟨0, 0, 0, 0, none⟩

/-- What an instruction does between two characters. -/
inductive Adjustment where
  /-- Insert a space of the given width. -/
  | kern (amount : Int32)
  /-- Insert a character, perhaps in place of the others, and pass over some. -/
  | ligature (code : UInt8) (deleteCurrent deleteNext : Bool) (skip : UInt8)
deriving Repr, DecidableEq

/-- An instruction of a program for kerns and ligatures. -/
structure Instruction where
  /-- The number of instructions between this and the next of its program. -/
  skip : UInt8
  /-- Whether it is the last of its program. -/
  stop : Bool
  /-- The character that it is about. -/
  nextChar : UInt8
  action : Adjustment
deriving Repr, DecidableEq

/-- A walk through a program for kerns and ligatures. -/
structure Walk where
  instructions : List Instruction
  /-- The index of the instruction to come, unless the last one was met. -/
  index? : Option Nat

namespace Walk

/-- The instruction to come and the walk after it. -/
def next (w : Walk) : Option (Instruction × Walk) := do
  let index ← w.index?
  let i ← w.instructions[index]?
  return (i, { w with index? := if i.stop then none else some (index + i.skip.toNat + 1) })

/-- The number of instructions from the one to come on. -/
def left (w : Walk) : Nat :=
  match w.index? with
  | none => 0
  | some index => w.instructions.length - index

theorem next_eq_some_iff {w w' : Walk} {i : Instruction} :
    w.next = some (i, w') ↔ ∃ index, w.index? = some index ∧ w.instructions[index]? = some i ∧
      w' = { w with index? := if i.stop then none else some (index + i.skip.toNat + 1) } := by
  simp only [next, Option.bind_eq_bind, Option.bind_eq_some_iff]
  constructor
  · rintro ⟨index, hindex, j, hj, h⟩
    obtain ⟨rfl, rfl⟩ := Prod.mk.inj (Option.some.inj h)
    exact ⟨index, hindex, hj, rfl⟩
  · rintro ⟨index, hindex, hi, rfl⟩
    exact ⟨index, hindex, i, hi, rfl⟩

/-- Every step goes forward. -/
theorem left_lt_of_next {w w' : Walk} {i : Instruction} (h : w.next = some (i, w')) :
    w'.left < w.left := by
  obtain ⟨index, hindex, hi, rfl⟩ := next_eq_some_iff.1 h
  obtain ⟨hlt, -⟩ := List.getElem?_eq_some_iff.1 hi
  simp only [left, hindex]
  cases i.stop <;> simp only [if_true, if_false, Bool.false_eq_true] <;> omega

/-- The instructions that are met. -/
def toList (w : Walk) : List Instruction :=
  match h : w.next with
  | none => []
  | some (i, w') =>
    have := left_lt_of_next h
    i :: toList w'
termination_by w.left

end Walk

/-- The metrics of a font. -/
structure Metrics where
  checksum : UInt32
  /-- The design size in points, with twenty fractional bits. -/
  designSize : Int32
  /-- The characters by increasing code. -/
  characters : List (UInt8 × CharMetrics)
  instructions : List Instruction
  params : List Int32
deriving Repr, DecidableEq

namespace Metrics

/-- Metrics without characters. -/
def empty (checksum : UInt32) (designSize : Int32) : Metrics :=
  ⟨checksum, designSize, [], [], []⟩

/-- Puts a character in its place by code, over one that has the code already. -/
def insertChar (code : UInt8) (c : CharMetrics) :
    List (UInt8 × CharMetrics) → List (UInt8 × CharMetrics)
  | [] => [(code, c)]
  | (other, d) :: rest =>
    if code < other then (code, c) :: (other, d) :: rest
    else if code = other then (code, c) :: rest
    else (other, d) :: insertChar code c rest

/-- The metrics with a further character. -/
def insert (m : Metrics) (code : UInt8) (c : CharMetrics) : Metrics :=
  { m with characters := insertChar code c m.characters }

/-- The dimensions of a character, if the font has it. -/
def character (m : Metrics) (code : UInt8) : Option CharMetrics :=
  m.characters.lookup code

/-- The instructions of the program that starts at an index. -/
def program (m : Metrics) (index : Nat) : List Instruction :=
  Walk.toList ⟨m.instructions, some index⟩

/-- The kern between two characters: what the first instruction about the
    right one in the program of the left one says, if it is a kern. -/
def kern (m : Metrics) (left right : UInt8) : Option Int32 := do
  let c ← m.character left
  let start ← c.program
  let i ← (m.program start).find? (·.nextChar = right)
  match i.action with
  | .kern amount => some amount
  | .ligature .. => none

/-- A parameter by its number, counted from one. -/
def param (m : Metrics) : (number : Nat) → Option Int32
  | 0 => none
  | n + 1 => m.params[n]?

end Metrics

end DviMarkup
