import SmallScheme.Numeral

/-!
# How great a number may be to be written

A number with too many digits cannot be written. Words are far below that, and so are the exact
results of one step of arithmetic, even if one of the numbers is no word but moderate only
(`isTooLong_of_moderate`).
-/

namespace SmallScheme.Numeral

/-- A number that fits into a word is no greater than two to the power of sixty-three. -/
theorem natAbs_le_of_fits {value : Int} (h : Fits value) : value.natAbs ≤ twoTo 63 := by
  obtain ⟨hleast, hgreatest⟩ := h
  have htwo : twoTo 63 = 9223372036854775808 := rfl
  simp only [least, greatest] at hleast hgreatest
  omega

theorem tenTo_le_tenTo {exponent other : Nat} (h : exponent ≤ other) :
    tenTo exponent ≤ tenTo other :=
  Nat.pow_le_pow_right (Nat.succ_pos 9) h

theorem isTooLong_eq_false_iff {value : Int} :
    isTooLong value = false ↔ value.natAbs < tenTo longest := by
  rw [isTooLong, decide_eq_false_iff_not, Nat.not_le, leastTooLong_eq]

/-- Words are not too long. -/
theorem isTooLong_of_fits {value : Int} (h : Fits value) : isTooLong value = false := by
  have hbound : twoTo 63 < tenTo 19 := by decide
  have hlongest : tenTo 19 ≤ tenTo longest := tenTo_le_tenTo (by decide)
  exact isTooLong_eq_false_iff.mpr
    (Nat.lt_of_le_of_lt (natAbs_le_of_fits h) (Nat.lt_of_lt_of_le hbound hlongest))

/-- Being so small that the product with any word can be written. -/
def Moderate (value : Int) : Prop :=
  isTooLong (least * value) = false

theorem moderate_iff {value : Int} :
    Moderate value ↔ twoTo 63 * value.natAbs < tenTo longest := by
  have hleast : least.natAbs = twoTo 63 := rfl
  rw [Moderate, isTooLong_eq_false_iff, Int.natAbs_mul, hleast]

/-- Words are moderate. -/
theorem moderate_of_fits {value : Int} (h : Fits value) : Moderate value := by
  have hproduct := Nat.mul_le_mul_left (twoTo 63) (natAbs_le_of_fits h)
  have hbound : twoTo 63 * twoTo 63 < tenTo 39 := by decide
  have hlongest : tenTo 39 ≤ tenTo longest := tenTo_le_tenTo (by decide)
  exact moderate_iff.mpr (Nat.lt_of_le_of_lt hproduct (Nat.lt_of_lt_of_le hbound hlongest))

/-- Moderate numbers are not too long. -/
theorem Moderate.isTooLong {value : Int} (h : Moderate value) : isTooLong value = false := by
  have hpos : 0 < twoTo 63 := by decide
  exact isTooLong_eq_false_iff.mpr
    (Nat.lt_of_le_of_lt (Nat.le_mul_of_pos_left value.natAbs hpos) (moderate_iff.mp h))

/-- The results of one step of arithmetic on moderate numbers can be written. One factor of a
product has to be a word. -/
theorem isTooLong_of_moderate {a b : Int} (ha : Moderate a) (hb : Moderate b) :
    isTooLong (a + b) = false ∧ (Fits a → isTooLong (a * b) = false) ∧
      isTooLong (a - b) = false := by
  rw [moderate_iff] at ha hb
  have hadd := Int.natAbs_add_le a b
  have hsub := Int.natAbs_sub_le a b
  have hsum : a.natAbs + b.natAbs < tenTo longest := by
    have htwo : twoTo 63 = 9223372036854775808 := rfl
    rw [htwo] at ha hb
    omega
  simp only [isTooLong_eq_false_iff]
  refine ⟨Nat.lt_of_le_of_lt hadd hsum, fun hfits => ?_, Nat.lt_of_le_of_lt hsub hsum⟩
  rw [Int.natAbs_mul]
  exact Nat.lt_of_le_of_lt (Nat.mul_le_mul_right _ (natAbs_le_of_fits hfits)) hb

end SmallScheme.Numeral
