/-
  The kern between two characters.

  A font's program is read into instructions, with their kerns and with the numbers of
  instructions to pass over.  Looking up a kern comes to the same as walking through the
  words of the program in the file.

  * `Walk.Visits`: a walk finds instructions at some indices, and then no more;
  * `Walk.exists_visits`: the indices increase and are inside the program;
  * `kernFrom` and `kernBetween` walk through the words of a file;
  * `kern_eq_kernBetween`: the kern that is looked up is the one of this walk.
-/
import DviMarkup.Proofs.Font.Reading

namespace DviMarkup

namespace Walk

/-! ## Walks -/

/-- The walk finds instructions at the indices, one after the other, and then no more. -/
inductive Visits : Walk → List Nat → Prop where
  | ended {w : Walk} (h : w.next = none) : Visits w []
  | found {w w' : Walk} {i : Instruction} {index : Nat} {indices : List Nat} (hindex : w.index? = some index)
      (h : w.next = some (i, w')) (hrest : Visits w' indices) : Visits w (index :: indices)

/-- **A walk goes forward through the program and ends.** -/
theorem exists_visits (w : Walk) : ∃ indices, w.Visits indices ∧ indices.Pairwise (· < ·) ∧
    ∀ index ∈ indices, index < w.instructions.length ∧ ∃ start, w.index? = some start ∧ start ≤ index := by
  induction w using Walk.toList.induct with
  | case1 w h => exact ⟨[], .ended h, .nil, by simp⟩
  | case2 w i w' h hlt ih =>
    obtain ⟨indices, hvisits, hincreasing, hinside⟩ := ih
    obtain ⟨index, hindex, hi, rfl⟩ := next_eq_some_iff.1 h
    obtain ⟨hin, -⟩ := List.getElem?_eq_some_iff.1 hi
    have hlater : ∀ later ∈ indices, index < later := by
      intro later hmem
      obtain ⟨-, start, hstart, hle⟩ := hinside later hmem
      simp only [Option.ite_none_left_eq_some, Option.some.injEq] at hstart
      omega
    refine ⟨index :: indices, .found hindex h hvisits, List.pairwise_cons.2 ⟨hlater, hincreasing⟩, ?_⟩
    intro later hmem
    rcases List.mem_cons.1 hmem with rfl | hmem
    · exact ⟨hin, later, hindex, Nat.le_refl _⟩
    · exact ⟨(hinside later hmem).1, index, hindex, (hlater later hmem).le⟩

theorem toList_of_next {w w' : Walk} {i : Instruction} (h : w.next = some (i, w')) :
    w.toList = i :: w'.toList := by
  rw [toList]
  split
  · rename_i h'; rw [h] at h'; cases h'
  · rename_i h'; rw [h] at h'; cases h'; rfl

theorem toList_of_none {w : Walk} (h : w.next = none) : w.toList = [] := by
  rw [toList]
  split
  · rfl
  · rename_i h'; rw [h] at h'; cases h'

/-- The instruction at the index, and then those that come after it. -/
theorem toList_eq (instructions : List Instruction) (index : Nat) :
    toList ⟨instructions, some index⟩ = match instructions[index]? with
      | none => []
      | some i => i :: if i.stop then [] else toList ⟨instructions, some (index + i.skip.toNat + 1)⟩ := by
  cases hi : instructions[index]? with
  | none => exact toList_of_none (by simp [next, hi])
  | some i =>
    rw [toList_of_next (next_eq_some_iff.2 ⟨index, rfl, hi, rfl⟩)]
    cases hstop : i.stop with
    | true =>
      have hended : toList ⟨instructions, none⟩ = [] := toList_of_none rfl
      simpa [hstop] using hended
    | false => simp [hstop]

end Walk

namespace Tfm

variable (data : List UInt8) (l : Layout)

/-! ## The words of a program -/

/-- The kern that the words of the program give from an index on: the first word about the character
    on the right has it, if it is a word for a kern.  A skip byte from 128 on ends the program,
    and a smaller one is the number of words to pass over. -/
def kernFrom (right : UInt8) (index : Nat) : Option Int32 :=
  if index < l.nl.toNat then
    let w := wordAt data (l.program + index)
    if w.b1 = right then
      if 128 ≤ w.b2 then some (wordAt data (l.kerns + kernIndex w)).signed else none
    else if 128 ≤ w.b0 then none
    else kernFrom right (index + w.b0.toNat + 1)
  else none
termination_by l.nl.toNat - index

/-- The kern between two characters: the program of the left one starts where its word says. -/
def kernBetween (left right : UInt8) : Option Int32 :=
  if HasCharacter data l left then (startOf data l (infoAt data l left)).bind (kernFrom data l right)
  else none

end Tfm

/-- The kern of an instruction, if it is one. -/
def Instruction.kern? (i : Instruction) : Option Int32 :=
  match i.action with
  | .kern amount => some amount
  | .ligature .. => none

theorem Metrics.kern_eq (m : Metrics) (left right : UInt8) :
    m.kern left right = (m.character left).bind fun c => c.program.bind fun start =>
      ((m.program start).find? (·.nextChar = right)).bind Instruction.kern? := rfl

namespace Tfm

variable (data : List UInt8) (l : Layout)

/-- The walk through the instructions of a file, from an index on. -/
def walkFrom (index : Nat) : Walk := ⟨(wordsAt data l.program l.nl.toNat).map (instructionOf data l), some index⟩

theorem toList_walkFrom {index : Nat} (h : index < l.nl.toNat) :
    (walkFrom data l index).toList = instructionOf data l (wordAt data (l.program + index)) ::
      if 128 ≤ (wordAt data (l.program + index)).b0 then []
      else (walkFrom data l (index + (wordAt data (l.program + index)).b0.toNat + 1)).toList := by
  rw [walkFrom, Walk.toList_eq, List.getElem?_map, getElem?_wordsAt, if_pos h, Option.map_some]
  generalize wordAt data (l.program + index) = w
  by_cases hstop : 128 ≤ w.b0
  · simp [instructionOf, hstop]
  · have hskip : w.b0 % 128 = w.b0 := by
      rw [UInt8.le_iff_toNat_le] at hstop
      rw [← UInt8.toNat_inj, UInt8.toNat_mod]
      exact Nat.mod_eq_of_lt (Nat.not_le.1 hstop)
    simp [instructionOf, hstop, hskip, walkFrom]

theorem toList_walkFrom_of_not {index : Nat} (h : ¬ index < l.nl.toNat) : (walkFrom data l index).toList = [] := by
  rw [walkFrom, Walk.toList_eq, List.getElem?_map, getElem?_wordsAt, if_neg h, Option.map_none]

theorem kern?_instructionOf (w : Word) : (instructionOf data l w).kern? =
    if 128 ≤ w.b2 then some (wordAt data (l.kerns + kernIndex w)).signed else none := by
  by_cases hligature : w.b2 < 128
  · rw [Instruction.kern?, instructionOf, if_pos hligature, if_neg (UInt8.not_le.2 hligature)]
  · rw [Instruction.kern?, instructionOf, if_neg hligature, if_pos (UInt8.not_lt.1 hligature)]

/-- The first instruction about a character on the right, from an index in the program on. -/
theorem find?_step (right : UInt8) {index : Nat} (h : index < l.nl.toNat) :
    (walkFrom data l index).toList.find? (·.nextChar = right) =
      if (wordAt data (l.program + index)).b1 = right then
        some (instructionOf data l (wordAt data (l.program + index)))
      else if 128 ≤ (wordAt data (l.program + index)).b0 then none
      else (walkFrom data l (index + (wordAt data (l.program + index)).b0.toNat + 1)).toList.find?
        (·.nextChar = right) := by
  rw [toList_walkFrom data l h, List.find?_cons]
  by_cases hmatch : (wordAt data (l.program + index)).b1 = right
  · have hfound : (instructionOf data l (wordAt data (l.program + index))).nextChar = right := hmatch
    rw [if_pos hmatch, decide_eq_true hfound]
  · have hother : ¬ (instructionOf data l (wordAt data (l.program + index))).nextChar = right := hmatch
    rw [if_neg hmatch, decide_eq_false hother]
    by_cases hstop : 128 ≤ (wordAt data (l.program + index)).b0
    · rw [if_pos hstop, if_pos hstop, List.find?_nil]
    · rw [if_neg hstop, if_neg hstop]

/-- Looking through the instructions comes to the same as walking through the words. -/
theorem find?_walkFrom (right : UInt8) (index : Nat) :
    ((walkFrom data l index).toList.find? (·.nextChar = right)).bind Instruction.kern? =
      kernFrom data l right index := by
  fun_induction kernFrom data l right index with
  | case1 index hin w hmatch hkern =>
    rw [find?_step data l right hin, if_pos hmatch, Option.bind_some, kern?_instructionOf, if_pos hkern]
  | case2 index hin w hmatch hligature =>
    rw [find?_step data l right hin, if_pos hmatch, Option.bind_some, kern?_instructionOf, if_neg hligature]
  | case3 index hin w hother hstop =>
    rw [find?_step data l right hin, if_neg hother, if_pos hstop, Option.bind_none]
  | case4 index hin w hother hstop ih =>
    rw [find?_step data l right hin, if_neg hother, if_neg hstop, ih]
  | case5 index hout => rw [toList_walkFrom_of_not data l hout, List.find?_nil, Option.bind_none]

/-- The kern that is looked up is the one of a walk through the words. -/
theorem kern_of_describes {data : List UInt8} {l : Layout} {m : Metrics} (h : Describes data l m)
    (left right : UInt8) : m.kern left right = kernBetween data l left right := by
  have hwalk : ∀ start, ((m.program start).find? (·.nextChar = right)).bind Instruction.kern? =
      kernFrom data l right start := by
    intro start
    rw [Metrics.program, h.instructions]
    exact find?_walkFrom data l right start
  rw [Metrics.kern_eq, h.character, kernBetween]
  simp only [hwalk]
  by_cases hhas : HasCharacter data l left
  · rw [if_pos hhas, if_pos hhas]
    rfl
  · rw [if_neg hhas, if_neg hhas]
    rfl

/-- **The kern between two characters is what the words of the font's program say.**  The instructions
    that a walk visits come one after the other in the program, so that every walk ends. -/
theorem kern_eq_kernBetween :
    (∀ data m, parse data = .ok m → ∀ left right,
      m.kern left right = kernBetween data (layout data) left right) ∧
    ∀ instructions start, ∃ indices, Walk.Visits ⟨instructions, some start⟩ indices ∧
      indices.Pairwise (· < ·) ∧ ∀ index ∈ indices, index < instructions.length := by
  constructor
  · intro data m h left right
    exact kern_of_describes (describes_of_parse h).2 left right
  · intro instructions start
    obtain ⟨indices, hvisits, hincreasing, hinside⟩ := Walk.exists_visits ⟨instructions, some start⟩
    exact ⟨indices, hvisits, hincreasing, fun index hindex => (hinside index hindex).1⟩

/-- A program that starts where its first word tells, and passes over a ligature in the way of the kern. -/
theorem kern_eq_kernBetween_twoCharacters :
    parse twoCharacters = .ok twoCharacterMetrics ∧ twoCharacterMetrics.kern 65 66 = some (-32768) := by
  have hparse : parse twoCharacters = .ok twoCharacterMetrics := by decide
  have hwords : kernBetween twoCharacters (layout twoCharacters) 65 66 = some (-32768) := by decide +kernel
  exact ⟨hparse, (kern_eq_kernBetween.1 _ _ hparse 65 66).trans hwords⟩

end Tfm

end DviMarkup
