/-
  The two orders of floating-point numbers.

  By value, the two zeros are the same number.  In the total order no two numbers are the
  same, and the negative zero stands before the positive one.  Both can be read off the bits:
  without the sign, they are a number that grows with the value.

  * `Unpacked` relates a number in its parts to its sign and the bits without it, and
    `compare_unpacked`: numbers in their parts are compared as their bits are;
  * `Binary64.place` is the place of a number by value, and `Binary64.lt_iff` and
    `Binary64.eq_iff`: defined numbers are compared by their places;
  * `Binary64.rank_injective`: numbers with the same rank in the total order are the same;
  * `Binary64.eq_or_zeros`: numbers with the same place are the same, or the two zeros.
-/
import DviMarkup.Number.Binary64
import Mathlib.Algebra.Order.Ring.Int
import Mathlib.Data.Nat.Cast.Order.Ring

namespace DviMarkup

open Float.Model (UnpackedFloat Format)
open Float.Model.UnpackedFloat (Sign unpackExponent unpackMantissa unpackSign)

/-! ## Parts of a number -/

section Parts

variable (b : BitVec 64)

theorem toNat_unpackExponent :
    (@unpackExponent Format.binary64 b).toNat = b.toNat / 2 ^ 52 % 2 ^ 11 := by
  simp [unpackExponent, Nat.shiftRight_eq_div_pow]

theorem toNat_unpackMantissa :
    (@unpackMantissa Format.binary64 b).toNat = b.toNat % 2 ^ 52 := by
  simp [unpackMantissa]

theorem toNat_unpackSign : (@unpackSign Format.binary64 b).toNat = b.toNat / 2 ^ 63 % 2 := by
  rw [← Nat.shiftRight_eq_div_pow]
  exact BitVec.extractLsb_toNat 63 63 b

/-- Whether a number in its parts has a sign and, besides it, the given bits: the mantissa and,
    above its 52 places, the exponent counted from the least one.  The mantissa has a bit more
    than its places, unless the exponent is the least one. -/
inductive Unpacked (s : Sign) : UnpackedFloat → Nat → Prop
  | infinity : Unpacked s (.infinity s) (2047 * 2 ^ 52)
  | zero : Unpacked s (.zero s) 0
  | finite {m e n : Nat} {k : Int} (pos : 0 < m) (narrow : m < 2 ^ 53) (bounded : e < 2046)
      (normal : e = 0 ∨ 2 ^ 52 ≤ m) (hk : k = e - 1074) (hn : n = m + e * 2 ^ 52) :
      Unpacked s (.finite s m k pos) n

/-- Every number comes apart like this. -/
theorem unpacked_unpack (defined : (UnpackedFloat.unpack Format.binary64 b).isNaN = false) :
    Unpacked (.ofBitVec (@unpackSign Format.binary64 b))
      (UnpackedFloat.unpack Format.binary64 b) (b.toNat % 2 ^ 63) := by
  have exponent := toNat_unpackExponent b
  have mantissa := toNat_unpackMantissa b
  have bias : Format.binary64.exponentBias = 1023 := rfl
  revert defined
  unfold UnpackedFloat.unpack
  dsimp only
  by_cases full : @unpackExponent Format.binary64 b = -1#_
  · rw [if_pos full]
    by_cases none : @unpackMantissa Format.binary64 b = 0#_
    · rw [if_pos none]
      rw [full] at exponent
      rw [none] at mantissa
      have exponent : 2047 = b.toNat / 2 ^ 52 % 2 ^ 11 := exponent
      have mantissa : 0 = b.toNat % 2 ^ 52 := mantissa
      have bits : b.toNat % 2 ^ 63 = 2047 * 2 ^ 52 := by
        omega
      rw [bits]
      exact fun _ => .infinity
    · rw [if_neg none]
      exact fun undefined => Bool.noConfusion undefined
  rw [if_neg full]
  have full : b.toNat / 2 ^ 52 % 2 ^ 11 ≠ 2047 := by
    rwa [← BitVec.toNat_inj, exponent] at full
  by_cases least : @unpackExponent Format.binary64 b = 0#_
  · rw [if_pos least]
    rw [least] at exponent
    have exponent : 0 = b.toNat / 2 ^ 52 % 2 ^ 11 := exponent
    by_cases none : @unpackMantissa Format.binary64 b = 0#_
    · rw [dif_pos none]
      rw [none] at mantissa
      have mantissa : 0 = b.toNat % 2 ^ 52 := mantissa
      have bits : b.toNat % 2 ^ 63 = 0 := by
        omega
      rw [bits]
      exact fun _ => .zero
    · -- there is no bit above the mantissa
      rw [dif_neg none]
      refine fun _ => .finite (e := 0) _ (by omega) (by omega) (.inl rfl) ?_ (by omega)
      rw [least, bias]
      rfl
  · rw [if_neg least]
    have least : b.toNat / 2 ^ 52 % 2 ^ 11 ≠ 0 := by
      rwa [← BitVec.toNat_inj, exponent] at least
    have leading : (1#1 ++ @unpackMantissa Format.binary64 b).toNat =
        2 ^ 52 + b.toNat % 2 ^ 52 := by
      rw [BitVec.toNat_append, ← Nat.shiftLeft_add_eq_or_of_lt (BitVec.isLt _), mantissa]
      rfl
    refine fun _ => .finite (e := b.toNat / 2 ^ 52 % 2 ^ 11 - 1) _ ?_ (by omega) ?_ ?_ ?_
    · rw [leading]
      omega
    · rw [leading]
      omega
    · rw [exponent, bias]
      push_cast
      omega
    · rw [leading]
      omega

end Parts

/-! ## Comparing the parts -/

/-- The exponent decides, and where it is the same, the mantissa: the bits are compared. -/
theorem compare_fields {m m' e e' n n' : Nat} (narrow : m < 2 ^ 53) (narrow' : m' < 2 ^ 53)
    (normal : e = 0 ∨ 2 ^ 52 ≤ m) (normal' : e' = 0 ∨ 2 ^ 52 ≤ m') (hn : n = m + e * 2 ^ 52)
    (hn' : n' = m' + e' * 2 ^ 52) :
    (compare ((e : Int) - 1074) (e' - 1074)).then (compare m m') = compare (n : Int) n' := by
  rcases Nat.lt_trichotomy e e' with h | rfl | h
  · rw [compare_lt_iff_lt.mpr (show (e : Int) - 1074 < e' - 1074 by omega)]
    exact (compare_lt_iff_lt.mpr (by omega)).symm
  · rw [compare_eq_iff_eq.mpr rfl, Ordering.eq_then]
    rcases Nat.lt_trichotomy m m' with h | rfl | h
    · rw [compare_lt_iff_lt.mpr h]
      exact (compare_lt_iff_lt.mpr (by omega)).symm
    · rw [compare_eq_iff_eq.mpr rfl]
      exact (compare_eq_iff_eq.mpr (by omega)).symm
    · rw [compare_gt_iff_gt.mpr h]
      exact (compare_gt_iff_gt.mpr (by omega)).symm
  · rw [compare_gt_iff_gt.mpr (show (e : Int) - 1074 > e' - 1074 by omega)]
    exact (compare_gt_iff_gt.mpr (by omega)).symm

theorem compare_neg_neg (a b : Int) : compare (-a) (-b) = (compare a b).swap := by
  rcases Int.lt_trichotomy a b with h | rfl | h
  · rw [compare_lt_iff_lt.mpr h]
    exact compare_gt_iff_gt.mpr (Int.neg_lt_neg h)
  · rw [compare_eq_iff_eq.mpr rfl, compare_eq_iff_eq.mpr rfl]
    rfl
  · rw [compare_gt_iff_gt.mpr h]
    exact compare_lt_iff_lt.mpr (Int.neg_lt_neg h)

/-- **Numbers in their parts are compared as their bits are**, with the sign. -/
theorem compare_unpacked {s s' : Sign} {u u' : UnpackedFloat} {n n' : Nat}
    (h : Unpacked s u n) (h' : Unpacked s' u' n') :
    u.compare u' = some (compare (s.apply n) (s'.apply n')) := by
  have lt {a b : Int} (h : a < b) : some Ordering.lt = some (compare a b) :=
    congrArg some (compare_lt_iff_lt.mpr h).symm
  have gt {a b : Int} (h : b < a) : some Ordering.gt = some (compare a b) :=
    congrArg some (compare_gt_iff_gt.mpr h).symm
  cases h with
  | infinity =>
    cases h' with
    | infinity => cases s <;> cases s' <;> rfl
    | zero => cases s <;> cases s' <;> rfl
    | finite pos narrow bounded normal hk hn =>
      cases s with
      | negative => exact lt (by cases s' <;> simp only [Sign.apply] <;> omega)
      | positive => exact gt (by cases s' <;> simp only [Sign.apply] <;> omega)
  | zero =>
    cases h' with
    | infinity => cases s <;> cases s' <;> rfl
    | zero => cases s <;> cases s' <;> rfl
    | finite pos narrow bounded normal hk hn =>
      cases s' with
      | negative => exact gt (by cases s <;> simp only [Sign.apply] <;> omega)
      | positive => exact lt (by cases s <;> simp only [Sign.apply] <;> omega)
  | finite pos narrow bounded normal hk hn =>
    cases h' with
    | infinity =>
      cases s' with
      | negative => cases s <;> exact gt (by simp only [Sign.apply]; omega)
      | positive => cases s <;> exact lt (by simp only [Sign.apply]; omega)
    | zero =>
      cases s with
      | negative => exact lt (by cases s' <;> simp only [Sign.apply] <;> omega)
      | positive => exact gt (by cases s' <;> simp only [Sign.apply] <;> omega)
    | finite pos' narrow' bounded' normal' hk' hn' =>
      have fields := compare_fields narrow narrow' normal normal' hn hn'
      subst hk hk'
      cases s with
      | negative =>
        cases s' with
        | negative =>
          rw [Sign.apply, Sign.apply, compare_neg_neg, ← fields]
          rfl
        | positive => exact lt (by simp only [Sign.apply]; omega)
      | positive =>
        cases s' with
        | negative => exact gt (by simp only [Sign.apply]; omega)
        | positive => exact congrArg some fields

/-! ## Comparing by value -/

namespace Binary64

/-- Whether a number is defined. -/
def isDefined : Binary64 → Bool
  | number _ _ => true
  | undefined _ => false

/-- The place of a number by value: the rank in the total order, if the two zeros are not
    counted apart. -/
def place (x : Binary64) : Int :=
  if rank x < 0 then rank x + 1 else rank x

/-- The bits of a number without its sign. -/
def magnitudeBits (x : Float) : Nat :=
  x.toBits.toNat % 2 ^ 63

/-- The sign of a number. -/
def signOf (x : Float) : Sign :=
  if isNegative x then .negative else .positive

theorem unpacked_number {x : Float} (defined : x.isNaN = false) :
    Unpacked (signOf x) x.toModel.unpack (magnitudeBits x) := by
  let b := x.toModel.toBits.toBitVec
  have sign : signOf x = .ofBitVec (@unpackSign Format.binary64 b) := by
    have bit := toNat_unpackSign b
    have bounded := b.isLt
    have negative : isNegative x = decide (b.toNat / 2 ^ 63 = 1) := rfl
    have positive : @unpackSign Format.binary64 b = 0#1 ↔ ¬b.toNat / 2 ^ 63 = 1 := by
      rw [← BitVec.toNat_inj, bit, BitVec.toNat_zero]
      omega
    unfold signOf Sign.ofBitVec
    rw [negative]
    by_cases h : b.toNat / 2 ^ 63 = 1
    · rw [if_neg fun h' => positive.mp h' h, decide_eq_true h, if_pos rfl]
    · rw [if_pos (positive.mpr h), decide_eq_false h, if_neg Bool.false_ne_true]
  rw [sign]
  exact unpacked_unpack b defined

theorem rank_number {x : Float} (defined : x.isNaN = false) :
    rank (.number x defined) =
      if isNegative x then -(magnitudeBits x : Int) - 1 else magnitudeBits x :=
  rfl

theorem place_number {x : Float} (defined : x.isNaN = false) :
    place (.number x defined) = (signOf x).apply (magnitudeBits x) := by
  rw [place, rank_number, signOf]
  cases isNegative x with
  | true =>
    simp only [if_true, Sign.apply]
    omega
  | false =>
    simp only [Bool.false_eq_true, if_false, Sign.apply]
    omega

theorem compare_number {x y : Float} (hx : x.isNaN = false) (hy : y.isNaN = false) :
    x.toModel.unpack.compare y.toModel.unpack =
      some (compare (place (.number x hx)) (place (.number y hy))) := by
  rw [place_number, place_number]
  exact compare_unpacked (unpacked_number hx) (unpacked_number hy)

section Compare

variable {x y : Binary64} (hx : x.isDefined = true) (hy : y.isDefined = true)

include hx hy

/-- **A defined number is less than another one if its place is before the other's.** -/
theorem lt_iff : Scalar.lt x y = true ↔ place x < place y := by
  cases x with
  | undefined => cases hx
  | number x dx =>
    cases y with
    | undefined => cases hy
    | number y dy =>
      have unpacked : Scalar.lt (number x dx) (number y dy) = true ↔
          (x.toModel.unpack.compare y.toModel.unpack == some .lt) = true :=
        decide_eq_true_iff.trans decide_eq_true_iff
      rw [unpacked, compare_number dx dy, beq_iff_eq, Option.some.injEq, compare_lt_iff_lt]

theorem lt_eq_false_iff : Scalar.lt x y = false ↔ place y ≤ place x := by
  rw [← Bool.not_eq_true, lt_iff hx hy, not_lt]

/-- **Defined numbers are equal if they have the same place.** -/
theorem eq_iff : Scalar.eq x y = true ↔ place x = place y := by
  cases x with
  | undefined => cases hx
  | number x dx =>
    cases y with
    | undefined => cases hy
    | number y dy =>
      have unpacked : Scalar.eq (number x dx) (number y dy) =
          (x.toModel.unpack.compare y.toModel.unpack == some .eq) := rfl
      rw [unpacked, compare_number dx dy, beq_iff_eq, Option.some.injEq, compare_eq_iff_eq]

end Compare

/-! ## The total order -/

theorem rank_number_bounds {x : Float} (defined : x.isNaN = false) :
    -2 ^ 63 ≤ rank (.number x defined) ∧ rank (.number x defined) < 2 ^ 63 := by
  have bounded : magnitudeBits x < 2 ^ 63 := Nat.mod_lt _ (by decide)
  rw [rank_number]
  split <;> omega

theorem rank_undefined (negative : Bool) :
    rank (.undefined negative) = -2 ^ 64 ∨ rank (.undefined negative) = 2 ^ 64 := by
  cases negative with
  | true => exact .inl rfl
  | false => exact .inr rfl

/-- **Numbers with the same rank are the same**, bit by bit. -/
theorem rank_injective {x y : Binary64} (h : rank x = rank y) : x = y := by
  cases x with
  | undefined a =>
    cases y with
    | undefined b =>
      cases a with
      | true => cases b with
        | true => rfl
        | false => cases h
      | false => cases b with
        | true => cases h
        | false => rfl
    | number y dy =>
      have bounds := rank_number_bounds dy
      rcases rank_undefined a with h' | h' <;> omega
  | number x dx =>
    cases y with
    | undefined b =>
      have bounds := rank_number_bounds dx
      rcases rank_undefined b with h' | h' <;> omega
    | number y dy =>
      rw [rank_number, rank_number] at h
      have negative (x : Float) : isNegative x = decide (x.toBits.toNat / 2 ^ 63 = 1) := rfl
      have bits : x.toBits.toNat = y.toBits.toNat := by
        have boundedx := x.toBits.toNat_lt
        have boundedy := y.toBits.toNat_lt
        simp only [negative, magnitudeBits, decide_eq_true_eq] at h
        split_ifs at h <;> omega
      obtain ⟨⟨x, validx⟩⟩ := x
      obtain ⟨⟨y, validy⟩⟩ := y
      obtain rfl : x = y := UInt64.toNat_inj.mp bits
      rfl

instance : DecidableEq Binary64 := fun x y =>
  decidable_of_iff (rank x = rank y) ⟨rank_injective, congrArg rank⟩

/-- The total order refines the order by value. -/
theorem place_le_place {x y : Binary64} (h : rank x ≤ rank y) : place x ≤ place y := by
  unfold place
  split_ifs <;> omega

/-- **Numbers with the same place are the same, or the two zeros.** -/
theorem eq_or_zeros {x y : Binary64} (h : place x = place y) (le : rank x ≤ rank y) :
    x = y ∨ x = -Scalar.zero ∧ y = Scalar.zero := by
  have negative : rank (-Scalar.zero) = -1 := by
    decide +kernel
  have positive : rank Scalar.zero = 0 := by
    decide +kernel
  rcases Int.lt_or_eq_of_le le with lt | eq
  · -- ranks at the same place lie on either side of the gap between the zeros
    have ranks : rank x = -1 ∧ rank y = 0 := by
      unfold place at h
      split_ifs at h <;> omega
    exact .inr ⟨rank_injective (ranks.1.trans negative.symm),
      rank_injective (ranks.2.trans positive.symm)⟩
  · exact .inl (rank_injective eq)

end Binary64

end DviMarkup
