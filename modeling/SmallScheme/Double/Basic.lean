import SmallScheme.Numeral

/-!
# Doubles

A double-precision number is its bit pattern: one sign bit, eleven bits of exponent and fifty-two
of fraction. `Double.view` reads the pattern as the number it stands for.
-/

namespace SmallScheme

/-- A double-precision floating point number, given by its bits. -/
structure Double where
  bits : UInt64
  deriving DecidableEq, Repr

namespace Double

open Numeral (twoTo tenTo)

/-- What a bit pattern stands for. -/
inductive View where
  | notANumber
  | infinite (negative : Bool)
  /-- The number `significand * 2 ^ exponent`, or its negative. -/
  | finite (negative : Bool) (significand : Nat) (exponent : Int)
  deriving DecidableEq, Repr

/-- The number a bit pattern stands for. A biased exponent of zero means that no leading one is
understood before the fraction. -/
def view (x : Double) : View :=
  let n := x.bits.toNat
  let negative := twoTo 63 ≤ n
  let biased : Nat := n / twoTo 52 % twoTo 11
  let fraction := n % twoTo 52
  if biased = 2047 then
    if fraction = 0 then .infinite negative else .notANumber
  else if biased = 0 then .finite negative fraction (-1074)
  else .finite negative (twoTo 52 + fraction) ((biased : Int) - 1075)

/-- The quotient of two numbers, rounded to the nearest whole number; a tie goes to the even one. -/
def roundedQuotient (num den : Nat) : Nat :=
  let floor := num / den
  let rest := num % den
  if 2 * rest < den then floor
  else if den < 2 * rest then floor + 1
  else floor + floor % 2

/-- The exponent of the last place of the double nearest to `num / den`, both positive: fifty-two
places below the leading bit, but no lower than the last place of the smallest doubles. -/
def lastPlace (num den : Nat) : Int :=
  let estimate : Int := (num.log2 : Int) - den.log2
  let reached :=
    if 0 ≤ estimate then den * twoTo estimate.toNat ≤ num else den ≤ num * twoTo (-estimate).toNat
  max (-1074) ((if reached then estimate else estimate - 1) - 52)

/-- The double nearest to `num / den`, where `den` is positive. A tie goes to the even significand;
what is too large becomes infinite. -/
def nearest (num den : Nat) : Double :=
  if num = 0 then ⟨0⟩
  else
    let place := lastPlace num den
    let significand :=
      if 0 ≤ place then roundedQuotient num (den * twoTo place.toNat)
      else roundedQuotient (num * twoTo (-place).toNat) den
    let bits := (place + 1074).toNat * twoTo 52 + significand
    ⟨(min bits (2047 * twoTo 52)).toUInt64⟩

/-- The double nearest to a decimal with the given digits before and after the point. -/
def ofDecimal (whole fraction : List Char) : Double :=
  nearest (Nat.ofDigitChars 10 (whole ++ fraction) 0) (tenTo fraction.length)

/-- Whether a double equals an integer, both taken as the numbers they stand for. -/
def equalsInt (x : Double) (i : Int) : Bool :=
  match x.view with
  | .finite negative significand exponent =>
    let scaled : Int := if negative then -significand else significand
    if 0 ≤ exponent then scaled * twoTo exponent.toNat == i
    else scaled == i * twoTo (-exponent).toNat
  | _ => false

/-- Whether two doubles are equal as numbers: the two zeros are, and what is not a number never
equals anything. -/
def equals (x y : Double) : Bool :=
  match x.view, y.view with
  | .notANumber, _ => false
  | .finite _ 0 _, .finite _ 0 _ => true
  | _, _ => x == y

end Double

end SmallScheme
