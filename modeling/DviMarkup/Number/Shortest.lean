/-
  The shortest decimal that reads back as a given floating-point number.

  A floating-point number stands for the interval of reals that are rounded to
  it.  Of the decimals in that interval the shortest is the one on the
  coarsest grid `k · 10 ^ s`.  If a grid has a point in the interval, one of the
  two neighbours of the number on that grid is such a point, so only these two
  have to be tried, grid by grid; if both are, the nearer is taken, and the
  greater if they are equally near.

  * `Binary` is a positive number with the widths of its interval;
  * `Binary.neighbour?` is the choice on one grid;
  * `Binary.shortest` goes through the grids, coarsest first;
  * `positional` writes the digits with a point and without an exponent.
-/

namespace DviMarkup

/-- A positive floating-point number `mantissa · 2 ^ exponent`. -/
structure Binary where
  mantissa : Nat
  exponent : Int
  /-- Whether the next smaller number is only half as far away as the next
      greater one. -/
  lowestOfBinade : Bool
deriving Repr, DecidableEq

/-- The number `coefficient · 10 ^ exponent`. -/
structure Digits where
  coefficient : Nat
  exponent : Int
deriving Repr, DecidableEq

/-- The quotient `numerator / denominator` with the distances to the ends of its
    interval, all over the same denominator. -/
structure Binary.Interval where
  numerator : Nat
  denominator : Nat
  below : Nat
  above : Nat
  /-- Whether the ends belong to the interval. -/
  closed : Bool

namespace Binary

/-- The interval of reals that are rounded to the number, ties to the number
    with the even mantissa. -/
def interval (b : Binary) : Interval :=
  let scale := Nat.pow 2 b.exponent.toNat
  { numerator := 4 * b.mantissa * scale
    denominator := 4 * Nat.pow 2 (-b.exponent).toNat
    below := (if b.lowestOfBinade then 1 else 2) * scale
    above := 2 * scale
    closed := b.mantissa % 2 = 0 }

/-- Whether a distance from the number stays within the end of the interval. -/
def Interval.reaches (i : Interval) (distance width : Nat) : Bool :=
  distance < width || (i.closed && distance = width)

/-- The neighbour of the number on the grid `k · 10 ^ s` that lies in the
    interval, the nearer one if both do. -/
def neighbour? (b : Binary) (s : Int) : Option Digits :=
  let i := b.interval
  let fine := Nat.pow 10 (-s).toNat
  let step := i.denominator * Nat.pow 10 s.toNat
  let k := i.numerator * fine / step
  let down := i.numerator * fine % step
  let up := step - down
  let lower := 0 < k && i.reaches down (i.below * fine)
  let upper := i.reaches up (i.above * fine)
  if lower && (!upper || down < up) then some ⟨k, s⟩
  else if upper then some ⟨k + 1, s⟩
  else none

/-- The number on a grid that contains it, as `finest` is to be chosen. -/
def onGrid (b : Binary) (finest : Int) : Digits :=
  let i := b.interval
  ⟨i.numerator * Nat.pow 10 (-finest).toNat / (i.denominator * Nat.pow 10 finest.toNat), finest⟩

/-- The first grid with a point in the interval, from `finest + steps` down. -/
def search (b : Binary) (finest : Int) : (steps : Nat) → Digits
  | 0 => b.onGrid finest
  | steps + 1 =>
    match b.neighbour? (finest + (steps + 1 : Nat)) with
    | some d => d
    | none => search b finest steps

/-- A grid that contains the number. -/
def finestGrid (b : Binary) : Int :=
  min b.exponent 0

/-- A grid whose step is greater than the number and its interval. -/
def coarsestGrid (b : Binary) : Int :=
  (b.mantissa.log2 + b.exponent + 2) * 30103 / 100000 + 2

/-- The shortest decimal in the interval. -/
def shortest (b : Binary) : Digits :=
  b.search b.finestGrid (b.coarsestGrid - b.finestGrid).toNat

end Binary

/-- The digits with a point where it belongs: zeros stand in for missing
    digits, and a whole number has no point. -/
def Digits.positional (d : Digits) : String :=
  let ds := Nat.toDigits 10 d.coefficient
  match d.exponent with
  | .ofNat n => String.ofList (ds ++ List.replicate n '0')
  | .negSucc n =>
    let places := n + 1
    let padded := List.replicate (places + 1 - ds.length) '0' ++ ds
    let split := padded.length - places
    String.ofList (padded.take split ++ '.' :: padded.drop split)

end DviMarkup
