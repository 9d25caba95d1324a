import SmallScheme.Proofs.Lexer.Taking

/-!
# Runs of digits

A run of digits that an end follows is taken as a whole, and it is the integer that it writes if
this fits into a word (`Cursor.next_digits`). Zeros in front count for nothing but the number of
digits: with too many of these the run is not converted, although the integer may be small.
-/

namespace SmallScheme

open Text (isBlank)

namespace Scan

/-- A run of digits is the integer that it writes, or unknown if this is too great. It is a fault if
it has too many digits, unless the integer has more than the greatest one anyway. -/
theorem integerToken_eq {digits : List Char} (hdigits : ∀ c ∈ digits, c.isDigit) :
    integerToken digits =
      if Nat.ofDigitChars 10 digits 0 < Numeral.tenTo greatestLength ∧
          Numeral.longest < digits.length then .error (.numeralTooLong digits.length)
      else if (Nat.ofDigitChars 10 digits 0 : Int) ≤ Numeral.greatest then
        .ok (.literal (.integer (Nat.ofDigitChars 10 digits 0)))
      else .ok .unknown := by
  have hlength := length_significant_le_iff hdigits
  have hgreatest : Numeral.greatest < Numeral.tenTo greatestLength := by decide
  have hfits : Numeral.Fits (Nat.ofDigitChars 10 digits 0) ↔
      (Nat.ofDigitChars 10 digits 0 : Int) ≤ Numeral.greatest :=
    ⟨fun h => h.2, fun h => ⟨Int.le_trans (by decide) (Int.natCast_nonneg _), h⟩⟩
  by_cases hsmall : Nat.ofDigitChars 10 digits 0 < Numeral.tenTo greatestLength
  · have hsignificant := hlength.mpr hsmall
    simp only [integerToken, hfits, hsmall, true_and, if_neg (Nat.not_lt.mpr hsignificant)]
  · have hsignificant := mt hlength.mp hsmall
    have hgreat : ¬ (Nat.ofDigitChars 10 digits 0 : Int) ≤ Numeral.greatest := by omega
    rw [integerToken, if_pos (Nat.lt_of_not_le hsignificant), if_neg fun h => hsmall h.1,
      if_neg hgreat]

/-- Zeros write zero. -/
theorem ofDigitChars_zeros (zeros : Nat) :
    Nat.ofDigitChars 10 (List.replicate zeros '0') 0 = 0 := by
  rw [Nat.ofDigitChars_replicate_zero, Nat.mul_zero]

theorem isDigit_zeros (zeros : Nat) : ∀ c ∈ List.replicate zeros '0', c.isDigit := by
  intro c hc
  rw [(List.mem_replicate.mp hc).2]
  rfl

theorem isDigit_zeros_append (zeros : Nat) {digits : List Char}
    (hdigits : ∀ c ∈ digits, c.isDigit) :
    ∀ c ∈ List.replicate zeros '0' ++ digits, c.isDigit := by
  intro c hc
  rcases List.mem_append.mp hc with hzero | hmem
  · exact isDigit_zeros zeros c hzero
  · exact hdigits c hmem

/-- Zeros in front make no difference as long as there are not too many digits. -/
theorem integerToken_zeros_append {digits : List Char} (hdigits : ∀ c ∈ digits, c.isDigit)
    {zeros : Nat} (hlength : zeros + digits.length ≤ Numeral.longest) :
    integerToken (List.replicate zeros '0' ++ digits) = integerToken digits := by
  have hall := isDigit_zeros_append zeros hdigits
  have hvalue : Nat.ofDigitChars 10 (List.replicate zeros '0' ++ digits) 0 =
      Nat.ofDigitChars 10 digits 0 := by
    rw [Nat.ofDigitChars_append, ofDigitChars_zeros]
  have hshort : ¬ Numeral.longest < (List.replicate zeros '0' ++ digits).length := by
    rw [List.length_append, List.length_replicate]
    omega
  have hshort' : ¬ Numeral.longest < digits.length := by omega
  simp only [integerToken_eq hall, integerToken_eq hdigits, hvalue, hshort, hshort', and_false,
    if_false]

end Scan

namespace Cursor

/-- Behind blanks a piece of text is taken from its first character on. -/
theorem next_of_blanks (mode : Mode) (position : Nat) {blanks rest : List Char} {first : Char}
    (hblanks : ∀ c ∈ blanks, isBlank c) (hfirst : isBlank first = false) :
    next ⟨mode, position, blanks ++ first :: rest⟩ =
      ((scan mode first rest).token,
        ⟨mode, position + blanks.length + (scan mode first rest).spelling.length,
          (scan mode first rest).rest⟩) := by
  have hstop : ∀ c ∈ (first :: rest).head?, isBlank c = false := by
    rintro c ⟨⟩
    exact hfirst
  obtain ⟨htake, hdrop⟩ := Scan.takeWhile_append_of_stop hblanks hstop
  rw [next_of_cons hdrop, skipBlanks, takeWhile]
  simp only [moved, htake]

/-- A run of digits that an end follows is taken as a whole. -/
theorem next_of_digits (mode : Mode) (position : Nat) {blanks digits rest : List Char}
    (hblanks : ∀ c ∈ blanks, isBlank c) (hne : digits ≠ []) (hdigits : ∀ c ∈ digits, c.isDigit)
    (hends : Scan.endsHere rest) :
    next ⟨mode, position, blanks ++ (digits ++ rest)⟩ =
      (Scan.integerToken digits, ⟨mode, position + blanks.length + digits.length, rest⟩) := by
  obtain ⟨first, chars, rfl⟩ := List.exists_cons_of_ne_nil hne
  have hfirst := hdigits first List.mem_cons_self
  have hscan := Scan.scan_digits mode hfirst (fun c hc => hdigits c (List.mem_cons_of_mem _ hc))
    (Scan.isDigit_eq_false_of_endsHere hends)
  rw [Scan.number_of_endsHere _ hends] at hscan
  have hblank := Scan.isBlank_eq_false_of_isDigit hfirst
  rw [List.cons_append, next_of_blanks mode position hblanks hblank, hscan]

/-- A run of digits that an end follows is taken as a whole, in both modes. It is the integer that
it writes if this fits into a word, and otherwise it is unknown. A run with too many digits is not
converted, unless the integer is so great that it does not matter. Up to that many digits, zeros in
front make no difference. -/
theorem next_digits (mode : Mode) (position : Nat) {blanks digits rest : List Char}
    (hblanks : ∀ c ∈ blanks, isBlank c) (hne : digits ≠ []) (hdigits : ∀ c ∈ digits, c.isDigit)
    (hends : Scan.endsHere rest) :
    next ⟨mode, position, blanks ++ (digits ++ rest)⟩ =
        (if Nat.ofDigitChars 10 digits 0 < Numeral.tenTo Scan.greatestLength ∧
            Numeral.longest < digits.length then .error (.numeralTooLong digits.length)
          else if (Nat.ofDigitChars 10 digits 0 : Int) ≤ Numeral.greatest then
            .ok (.literal (.integer (Nat.ofDigitChars 10 digits 0)))
          else .ok .unknown,
          ⟨mode, position + blanks.length + digits.length, rest⟩) ∧
      ∀ zeros, zeros + digits.length ≤ Numeral.longest →
        (next ⟨mode, position, blanks ++ (List.replicate zeros '0' ++ digits ++ rest)⟩).1 =
          (next ⟨mode, position, blanks ++ (digits ++ rest)⟩).1 := by
  constructor
  · rw [next_of_digits mode position hblanks hne hdigits hends, Scan.integerToken_eq hdigits]
  · intro zeros hlength
    have hall := Scan.isDigit_zeros_append zeros hdigits
    have hne' : List.replicate zeros '0' ++ digits ≠ [] :=
      List.append_ne_nil_of_right_ne_nil _ hne
    rw [next_of_digits mode position hblanks hne' hall hends,
      next_of_digits mode position hblanks hne hdigits hends]
    exact Scan.integerToken_zeros_append hdigits hlength

/-- The greatest integer with two zeros in front, behind blanks and before a parenthesis. -/
theorem next_digits_greatest :
    let digits := ['0', '0', '9', '2', '2', '3', '3', '7', '2', '0', '3', '6', '8', '5', '4', '7',
      '7', '5', '8', '0', '7']
    (∀ c ∈ ['\t', ' '], isBlank c) ∧ (∀ c ∈ digits, c.isDigit) ∧ Scan.endsHere [')'] ∧
      next ⟨.literals, 5, ['\t', ' '] ++ (digits ++ [')'])⟩ =
        (.ok (.literal (.integer 9223372036854775807)), ⟨.literals, 28, [')']⟩) := by
  intro digits
  have hblanks : ∀ c ∈ ['\t', ' '], isBlank c := List.all_eq_true.mp rfl
  have hdigits : ∀ c ∈ digits, c.isDigit := List.all_eq_true.mp rfl
  have hends : Scan.endsHere [')'] := rfl
  refine ⟨hblanks, hdigits, hends, ?_⟩
  exact (next_digits .literals 5 hblanks (List.cons_ne_nil _ _) hdigits hends).1

/-- Too many zeros are not converted, although they write the same integer as one of them. -/
theorem next_of_zeros (mode : Mode) {zeros : Nat} (h : Numeral.longest < zeros) :
    next (ofText mode (List.replicate zeros '0')) =
      (.error (.numeralTooLong zeros), ⟨mode, zeros, []⟩) := by
  have hdigits := Scan.isDigit_zeros zeros
  have hne : List.replicate zeros '0' ≠ [] :=
    List.ne_nil_of_length_pos (by rw [List.length_replicate]; omega)
  have hlong : Numeral.longest < (List.replicate zeros '0').length := by
    rwa [List.length_replicate]
  have hnext : next ⟨mode, 0, [] ++ (List.replicate zeros '0' ++ [])⟩ = _ :=
    next_of_digits mode 0 (List.forall_mem_nil _) hne hdigits rfl
  rw [Scan.integerToken_eq hdigits, Scan.ofDigitChars_zeros, if_pos ⟨by decide, hlong⟩,
    List.nil_append, List.append_nil, List.length_replicate] at hnext
  simpa [ofText] using hnext

/-- So many zeros write an integer that fits into a word, and are a fault in both modes. -/
theorem next_zeros :
    (Nat.ofDigitChars 10 (List.replicate 4301 '0') 0 : Int) ≤ Numeral.greatest ∧
      (ofText .structural (List.replicate 4301 '0')).next =
        (.error (.numeralTooLong 4301), ⟨.structural, 4301, []⟩) ∧
      (ofText .literals (List.replicate 4301 '0')).next =
        (.error (.numeralTooLong 4301), ⟨.literals, 4301, []⟩) := by
  have hlong : Numeral.longest < 4301 := by decide
  refine ⟨?_, next_of_zeros .structural hlong, next_of_zeros .literals hlong⟩
  rw [Scan.ofDigitChars_zeros]
  decide

end Cursor

end SmallScheme
