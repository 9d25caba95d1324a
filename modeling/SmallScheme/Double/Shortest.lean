import SmallScheme.Double.Basic

/-!
# Shortest decimals

Every double has a decimal with at most seventeen digits that reads back as that double. The
shortest one is found on the grids of decimals with one digit, two digits and so on: the first grid
that has a member in the interval of numbers nearest to the double supplies it. Everything is
computed in whole numbers.
-/

namespace SmallScheme.Double

open Numeral (twoTo tenTo)

/-- A decimal number in scientific form: the digits, the first of which stands before the point,
and the exponent of ten. -/
structure Scientific where
  digits : List Char
  exponent : Int
  deriving DecidableEq, Repr

/-- The numbers that read back as one double, in a unit of their own. -/
structure Basin where
  low : Nat
  centre : Nat
  high : Nat
  /-- Whether `low` and `high` themselves read back. -/
  closed : Bool

/-- Whether a number reads back as the double of the basin. -/
def Basin.holds (b : Basin) (x : Nat) : Bool :=
  if b.closed then b.low ≤ x && x ≤ b.high else b.low < x && x < b.high

/-- The better of a grid point below the centre and the one above it: the nearer one, or the even
one if they are equally near, among those in the basin. The grid has the given step. -/
def Basin.choose? (b : Basin) (step : Nat) : Option Nat :=
  let below := b.centre / step
  let above := below + 1
  match b.holds (below * step), b.holds (above * step) with
  | false, false => none
  | true, false => some below
  | false, true => some above
  | true, true =>
    let down := b.centre - below * step
    let up := above * step - b.centre
    some (if down < up then below else if up < down then above else below + below % 2)

/-- The exponent of ten of the leading digit of `num / den`, both positive. -/
def leadingExponent (num den : Nat) : Int :=
  if den ≤ num then ((Nat.toDigits 10 (num / den)).length : Int) - 1
  else -((Nat.toDigits 10 ((den - 1) / num)).length : Int)

/-- The digits of a grid point without the zeros at its end, with the exponent of the first one. -/
def Scientific.ofGrid (point : Nat) (place : Int) : Scientific :=
  let digits := Nat.toDigits 10 point
  ⟨(digits.reverse.dropWhile (· == '0')).reverse, place + digits.length - 1⟩

/-- The decimal with `count` digits, if one reads back, for a number `m * 2 ^ q` whose leading
exponent is given. Numbers are taken in quarters of the last place and scaled to be whole. -/
def withDigits? (m : Nat) (q leading : Int) (count : Nat) : Option Scientific :=
  let place := leading - count + 1
  let twos := q - 2
  let unit := twoTo twos.toNat * tenTo (-place).toNat
  let step := tenTo place.toNat * twoTo (-twos).toNat
  let slack := if m = twoTo 52 ∧ -1074 < q then 1 else 2
  let basin : Basin :=
    ⟨(4 * m - slack) * unit, 4 * m * unit, (4 * m + 2) * unit, m % 2 = 0⟩
  (basin.choose? step).map (Scientific.ofGrid · place)

/-- The shortest decimal that reads back as the double `m * 2 ^ q`, where `m` is positive. -/
def shortest (m : Nat) (q : Int) : Scientific :=
  let leading := leadingExponent (m * twoTo q.toNat) (twoTo (-q).toNat)
  ((List.range 17).findSome? fun n => withDigits? m q leading (n + 1)).getD ⟨['0'], 0⟩

end SmallScheme.Double
