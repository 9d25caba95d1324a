/-!
# Numerals

Numbers may grow without bound, but a program can write and compute only those that fit into a
signed word of sixty-four bits, and only so many digits are converted between a number and its text.
-/

namespace SmallScheme.Numeral

/-- A power of two. -/
def twoTo (exponent : Nat) : Nat :=
  Nat.pow 2 exponent

/-- A power of ten. -/
def tenTo (exponent : Nat) : Nat :=
  Nat.pow 10 exponent

/-- The least number of a word. -/
def least : Int :=
  -9223372036854775808

/-- The greatest number of a word. -/
def greatest : Int :=
  9223372036854775807

/-- Being a number that fits into a word. -/
def Fits (value : Int) : Prop :=
  least ≤ value ∧ value ≤ greatest

instance (value : Int) : Decidable (Fits value) :=
  inferInstanceAs (Decidable (_ ∧ _))

/-- The most digits that are converted. -/
def longest : Nat :=
  4300

/-- The least number with more digits. -/
def leastTooLong : Nat :=
  -- Proofs compute with this number, and no exponent that they meet on the way may be great.
  Nat.pow (tenTo 100) 43

theorem leastTooLong_eq : leastTooLong = tenTo longest := by
  decide +kernel

/-- Whether a number has too many digits to be written. -/
def isTooLong (value : Int) : Bool :=
  leastTooLong ≤ value.natAbs

end SmallScheme.Numeral
