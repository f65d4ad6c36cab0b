/-
  Words of several bytes are read as they were written.

  * `BigEndian.unsigned_ofNat`: the low bytes of a number spell the number modulo
    the range of so many bytes;
  * `BigEndian.signed_ofInt`: in two's complement they spell every number of the
    signed range;
  * `BigEndian.signed_bounds`: and no others.
-/
import DviMarkup.Number.BigEndian
import Mathlib.Algebra.Order.Ring.Int
import Mathlib.Data.List.Induction
import Mathlib.Tactic.NormNum

namespace DviMarkup.BigEndian

@[simp] theorem length_ofNat (count n : Nat) : (ofNat count n).length = count := by
  induction count generalizing n with
  | zero => rfl
  | succ count ih => simp [ofNat, ih]

@[simp] theorem length_ofInt (count : Nat) (n : Int) : (ofInt count n).length = count :=
  length_ofNat _ _

theorem unsigned_append_singleton (bytes : List UInt8) (b : UInt8) :
    unsigned (bytes ++ [b]) = 256 * unsigned bytes + b.toNat := by
  simp [unsigned, List.foldl_append]

theorem unsigned_lt (bytes : List UInt8) : unsigned bytes < 256 ^ bytes.length := by
  induction bytes using List.reverseRecOn with
  | nil => decide
  | append_singleton bytes b ih =>
    have hb := b.toNat_lt
    rw [unsigned_append_singleton, List.length_append, List.length_singleton, Nat.pow_succ]
    omega

theorem unsigned_ofNat_mod (count n : Nat) : unsigned (ofNat count n) = n % 256 ^ count := by
  induction count generalizing n with
  | zero => rw [Nat.pow_zero, Nat.mod_one]; rfl
  | succ count ih =>
    calc unsigned (ofNat (count + 1) n)
        = 256 * (n / 256 % 256 ^ count) + n % 256 := by
          rw [ofNat, unsigned_append_singleton, ih, UInt8.toNat_ofNat']
      _ = n % 256 ^ (count + 1) := by
          rw [Nat.pow_succ', Nat.mod_mul]
          omega

theorem unsigned_ofNat {count n : Nat} (h : n < 256 ^ count) : unsigned (ofNat count n) = n := by
  rw [unsigned_ofNat_mod, Nat.mod_eq_of_lt h]

/-- **Two's complement**: the upper half of the range stands for the negative
    numbers. -/
theorem signed_ofInt {count : Nat} {n : Int} (hlo : -256 ^ count ≤ 2 * n)
    (hhi : 2 * n < 256 ^ count) :
    signed (ofInt count n) = n := by
  have hpos : (0 : Int) < 256 ^ count := Int.pow_pos (by decide)
  have hcast : ((256 ^ count : Nat) : Int) = 256 ^ count := by norm_cast
  have hnat : ((n % 256 ^ count).toNat : Int) = n % 256 ^ count :=
    Int.toNat_of_nonneg (Int.emod_nonneg _ hpos.ne')
  have hlt : (n % 256 ^ count).toNat < 256 ^ count := by
    have := Int.emod_lt_of_pos n hpos
    omega
  simp only [signed, length_ofInt]
  simp only [ofInt, Nat.pow_eq]
  push_cast
  rw [unsigned_ofNat hlt]
  rcases lt_or_ge n 0 with hneg | hnonneg
  · have hmod : n % 256 ^ count = n + 256 ^ count := by
      rw [← Int.add_emod_right, Int.emod_eq_of_lt (by omega) (by omega)]
    rw [if_neg (by omega)]
    omega
  · have hmod : n % 256 ^ count = n := Int.emod_eq_of_lt hnonneg (by omega)
    rw [if_pos (by omega)]
    omega

/-- Half of the numbers in two's complement are negative. -/
theorem signed_bounds (bytes : List UInt8) :
    -256 ^ bytes.length ≤ 2 * signed bytes ∧ 2 * signed bytes < 256 ^ bytes.length := by
  have hlt := unsigned_lt bytes
  have hcast : ((256 ^ bytes.length : Nat) : Int) = 256 ^ bytes.length := by norm_cast
  simp only [signed, Nat.pow_eq]
  split <;> omega

end DviMarkup.BigEndian
