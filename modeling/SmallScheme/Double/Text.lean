import SmallScheme.Double.Shortest

/-!
# Doubles as text

A double is written with its shortest digits: positionally where its size allows, with an exponent
otherwise.
-/

namespace SmallScheme.Double

/-- How decimals are laid out. -/
structure Layout where
  /-- The least exponent that is written positionally. -/
  positionalFrom : Int
  /-- The least exponent above those that are written positionally. -/
  positionalBelow : Int
  /-- The least number of digits of a written exponent. -/
  exponentDigits : Nat

/-- Decimals from `0.0001` to below `10 ^ 16` are positional; exponents have two digits or more. -/
def layout : Layout :=
  ⟨-4, 16, 2⟩

/-- Digits with a point behind the first `count` of them, filled with zeros and with at least one
digit on either side. -/
def pointed (digits : List Char) (count : Nat) : List Char :=
  let whole := digits.take count ++ List.replicate (count - digits.length) '0'
  let fraction := digits.drop count
  whole ++ '.' :: (if fraction.isEmpty then ['0'] else fraction)

/-- An exponent: a sign, then its digits. -/
def Layout.exponentText (l : Layout) (exponent : Int) : List Char :=
  let digits := Nat.toDigits 10 exponent.natAbs
  'e' :: (if exponent < 0 then '-' else '+')
    :: (List.replicate (l.exponentDigits - digits.length) '0' ++ digits)

/-- A decimal, laid out. -/
def Layout.write (l : Layout) (s : Scientific) : List Char :=
  if l.positionalFrom ≤ s.exponent ∧ s.exponent < l.positionalBelow then
    if s.exponent < 0 then
      '0' :: '.' :: (List.replicate (-s.exponent - 1).toNat '0' ++ s.digits)
    else pointed s.digits (s.exponent.toNat + 1)
  else
    s.digits.take 1 ++ (if s.digits.length ≤ 1 then [] else '.' :: s.digits.drop 1)
      ++ l.exponentText s.exponent

/-- The text of a double. -/
def text (x : Double) : String :=
  match x.view with
  | .notANumber => "nan"
  | .infinite negative => if negative then "-inf" else "inf"
  | .finite negative significand exponent =>
    let digits := if significand = 0 then ⟨['0'], 0⟩ else shortest significand exponent
    String.ofList ((if negative then ['-'] else []) ++ layout.write digits)

end SmallScheme.Double
