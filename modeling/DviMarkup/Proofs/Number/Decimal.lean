/-
  Decimals: the numbers that code can hold.

  * `Decimal` is an optional sign and digits with an optional point, at least one digit;
    `Decimal.spelling` and `Decimal.value` are how it is written and what it is;
  * `Numeral.plain?_eq_some_iff`: a text is read as a number exactly if it is the spelling of
    a decimal, and then as its value.
-/
import Mathlib.Data.List.TakeWhile
import DviMarkup.Number.Numeral
import DviMarkup.Text.Blank

namespace DviMarkup

open Numeral

/-- An optional sign and digits with an optional point. -/
structure Decimal where
  /-- Whether it is a minus, if there is a sign. -/
  sign : Option Bool
  /-- The digits before the point. -/
  whole : List Char
  /-- The digits after the point, if there is one. -/
  fraction : Option (List Char)
  digits : ∀ c ∈ whole ++ fraction.getD [], isDigit c = true
  nonempty : whole ++ fraction.getD [] ≠ []

namespace Decimal

/-- How an optional sign is written. -/
def signText : Option Bool → List Char
  | none => []
  | some false => ['+']
  | some true => ['-']

/-- How optional digits after a point are written. -/
def fractionText : Option (List Char) → List Char
  | none => []
  | some digits => '.' :: digits

/-- The decimal without its sign. -/
def unsigned (d : Decimal) : List Char :=
  d.whole ++ fractionText d.fraction

/-- How a decimal is written. -/
def spelling (d : Decimal) : List Char :=
  signText d.sign ++ d.unsigned

/-- The digits before and after the point. -/
def allDigits (d : Decimal) : List Char :=
  d.whole ++ d.fraction.getD []

/-- The number that a decimal is. -/
def value (d : Decimal) : Numeral :=
  .finite (d.sign = some true) (ofDigits d.allDigits) (-(d.fraction.getD []).length)

/-- A decimal without its sign is written with digits and a point. -/
theorem of_mem_unsigned {d : Decimal} {c : Char} (h : c ∈ d.unsigned) :
    isDigit c = true ∨ c = '.' := by
  rcases List.mem_append.mp h with h | h
  · exact .inl (d.digits c (List.mem_append_left _ h))
  · cases hf : d.fraction with
    | none =>
      rw [hf] at h
      cases h
    | some f =>
      rw [hf] at h
      rcases List.mem_cons.mp h with h | h
      · exact .inr h
      · refine .inl (d.digits c (List.mem_append_right _ ?_))
        rwa [hf]

theorem of_mem_spelling {d : Decimal} {c : Char} (h : c ∈ d.spelling) :
    isDigit c = true ∨ c = '.' ∨ c = '+' ∨ c = '-' := by
  rcases List.mem_append.mp h with h | h
  · rcases hs : d.sign with _ | _ | _ <;> rw [hs] at h
    · cases h
    · exact .inr (.inr (.inl (List.mem_singleton.mp h)))
    · exact .inr (.inr (.inr (List.mem_singleton.mp h)))
  · exact (of_mem_unsigned h).imp_right .inl

theorem spelling_ne_nil (d : Decimal) : d.spelling ≠ [] := by
  intro h
  obtain ⟨-, h⟩ := List.append_eq_nil_iff.mp h
  obtain ⟨whole, fraction⟩ := List.append_eq_nil_iff.mp h
  refine d.nonempty (List.append_eq_nil_iff.mpr ⟨whole, ?_⟩)
  cases hf : d.fraction with
  | none => rfl
  | some f =>
    rw [hf] at fraction
    cases fraction

end Decimal

open Decimal

namespace Numeral

/-! ## Signs -/

/-- The sign that a text begins with is read off it. -/
theorem exists_sign (s : List Char) :
    ∃ sign unsigned, s = signText sign ++ unsigned ∧
      Numeral.sign s = (decide (sign = some true), unsigned) := by
  unfold Numeral.sign
  split
  · exact ⟨some true, _, rfl, rfl⟩
  · exact ⟨some false, _, rfl, rfl⟩
  · exact ⟨none, s, rfl, rfl⟩

theorem sign_signText (sign : Option Bool) {s : List Char} (plus : s.head? ≠ some '+')
    (minus : s.head? ≠ some '-') :
    Numeral.sign (signText sign ++ s) = (decide (sign = some true), s) := by
  rcases sign with _ | _ | _
  · rw [signText, List.nil_append]
    unfold Numeral.sign
    split
    · exact absurd rfl minus
    · exact absurd rfl plus
    · rfl
  · rfl
  · rfl

/-! ## Digits -/

/-- Digits with an optional point are read to their end. -/
theorem mantissa?_unsigned (d : Decimal) :
    mantissa? d.unsigned = some (ofDigits d.allDigits, (d.fraction.getD []).length, []) := by
  obtain ⟨sign, whole, fraction, digits, nonempty⟩ := d
  have hwhole : ∀ c ∈ whole, isDigit c = true := fun c hc => digits c (List.mem_append_left _ hc)
  have some_digit (fraction : List Char) (h : whole ++ fraction ≠ []) :
      ¬(whole.isEmpty && fraction.isEmpty) = true := by
    rwa [Bool.and_eq_true, List.isEmpty_iff, List.isEmpty_iff, ← List.append_eq_nil_iff]
  unfold mantissa? unsigned allDigits
  cases fraction with
  | none =>
    obtain ⟨front, back⟩ := Text.takeWhile_dropWhile_append hwhole [] nofun
    simp only [fractionText, Option.getD_none, front, back]
    exact if_neg (some_digit [] nonempty)
  | some f =>
    have hf : ∀ c ∈ f, isDigit c = true := fun c hc => digits c (List.mem_append_right _ hc)
    obtain ⟨front, back⟩ := Text.takeWhile_dropWhile_append hwhole ('.' :: f) (by
      rintro c ⟨⟩
      rfl)
    obtain ⟨front', back'⟩ := Text.takeWhile_dropWhile_append hf [] nofun
    rw [List.append_nil] at front' back'
    simp only [fractionText, Option.getD_some, front, back, front', back']
    exact if_neg (some_digit f nonempty)

/-- What is read to its end are digits with an optional point. -/
theorem exists_decimal_of_mantissa? {s : List Char} {digits places : Nat} (sign : Option Bool)
    (h : mantissa? s = some (digits, places, [])) :
    ∃ d : Decimal, d.sign = sign ∧ d.unsigned = s ∧ ofDigits d.allDigits = digits ∧
      (d.fraction.getD []).length = places := by
  have joined := List.takeWhile_append_dropWhile (p := isDigit) (l := s)
  have front : ∀ c ∈ s.takeWhile isDigit, isDigit c = true := fun c => List.mem_takeWhile_imp
  unfold mantissa? at h
  cases tail : s.dropWhile isDigit with
  | nil =>
    -- there is no point
    simp only [tail, Option.ite_none_left_eq_some, Option.some.injEq, Prod.mk.injEq] at h
    obtain ⟨nonempty, rfl, rfl, -⟩ := h
    rw [tail, List.append_nil] at joined
    rw [List.isEmpty_nil, Bool.and_true, List.isEmpty_iff] at nonempty
    refine ⟨⟨sign, s.takeWhile isDigit, none, ?_, ?_⟩, rfl, ?_, rfl, rfl⟩
    · rwa [Option.getD_none, List.append_nil]
    · rwa [Option.getD_none, List.append_nil]
    · rwa [unsigned, fractionText, List.append_nil]
  | cons c t =>
    by_cases point : c = '.'
    · subst point
      simp only [tail, Option.ite_none_left_eq_some, Option.some.injEq, Prod.mk.injEq] at h
      obtain ⟨nonempty, rfl, rfl, rest⟩ := h
      have back : ∀ c ∈ t, isDigit c = true := List.dropWhile_eq_nil_iff.mp rest
      rw [List.takeWhile_eq_self_iff.mpr back, Bool.and_eq_true, List.isEmpty_iff,
        List.isEmpty_iff, ← List.append_eq_nil_iff] at nonempty
      rw [List.takeWhile_eq_self_iff.mpr back]
      rw [tail] at joined
      have digits := List.forall_mem_append.mpr ⟨front, back⟩
      exact ⟨⟨sign, s.takeWhile isDigit, some t, digits, nonempty⟩, rfl, joined, rfl, rfl⟩
    · -- what is not a digit is left over
      simp [tail, point] at h

/-- **A text is read as a number exactly if it is a decimal.** -/
theorem plain?_eq_some_iff {s : List Char} {n : Numeral} :
    plain? s = some n ↔ ∃ d : Decimal, d.spelling = s ∧ d.value = n := by
  constructor
  · intro h
    obtain ⟨sign, unsigned, rfl, hsign⟩ := exists_sign s
    rw [plain?, hsign] at h
    dsimp only at h
    split at h
    · rename_i digits places hm
      obtain ⟨d, rfl, rfl, rfl, rfl⟩ := exists_decimal_of_mantissa? sign hm
      exact ⟨d, rfl, Option.some.inj h⟩
    · cases h
  · rintro ⟨d, rfl, rfl⟩
    have noSign (c : Char) (hc : ¬(isDigit c = true ∨ c = '.')) : d.unsigned.head? ≠ some c :=
      fun h => hc (of_mem_unsigned (List.mem_of_head? h))
    rw [plain?, spelling, sign_signText d.sign (noSign _ (by decide)) (noSign _ (by decide))]
    dsimp only
    rw [mantissa?_unsigned]
    rfl

end Numeral

end DviMarkup
