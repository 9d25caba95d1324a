import SmallScheme.Proofs.Lexer.Taking

/-!
# Numerals that are too long

Scanning is stopped by one thing only: a run of more digits than are converted. So a text without
such a run has a token wherever scanning goes on (`hasLongNumeral_of_mem_lexemes`). An integer that
is scanned fits into a word (`Lexeme.fits_of_mem`).
-/

namespace SmallScheme

open Text (isBlank)

/-- Having more digits in a row than are converted. -/
def HasLongNumeral (text : List Char) : Prop :=
  ∃ digits, digits <:+: text ∧ (∀ c ∈ digits, c.isDigit) ∧ Numeral.longest < digits.length

theorem HasLongNumeral.of_infix {text other : List Char} (h : HasLongNumeral text)
    (hpiece : text <:+: other) : HasLongNumeral other := by
  obtain ⟨digits, hdigits, hall, hlong⟩ := h
  exact ⟨digits, hdigits.trans hpiece, hall, hlong⟩

/-- A text that is no longer than a numeral may be has no numeral that is too long. -/
theorem not_hasLongNumeral {text : List Char} (h : text.length ≤ Numeral.longest) :
    ¬ HasLongNumeral text := by
  rintro ⟨digits, hpiece, _, hlong⟩
  have hlength := hpiece.length_le
  omega

namespace Scan

variable {digits rest : List Char} {fault : Fault}

theorem tooLong_of_integerToken (h : integerToken digits = .error fault) :
    fault = .numeralTooLong digits.length ∧ Numeral.longest < digits.length := by
  unfold integerToken at h
  split at h
  · cases h
  · split at h
    · next hlong => exact ⟨(Except.error.inj h).symm, hlong⟩
    · dsimp only at h
      split at h <;> cases h

theorem tooLong_of_number (h : (number digits rest).token = .error fault) :
    fault = .numeralTooLong digits.length ∧ Numeral.longest < digits.length := by
  unfold number at h
  split at h
  · cases h
  · split at h
    · exact tooLong_of_integerToken h
    · cases h

theorem fits_of_integerToken {value : Int}
    (h : integerToken digits = .ok (.literal (.integer value))) : Numeral.Fits value := by
  unfold integerToken at h
  split at h
  · cases h
  · split at h
    · cases h
    · dsimp only at h
      split at h
      · next hfits =>
        cases h
        exact hfits
      · cases h

theorem fits_of_number {value : Int}
    (h : (number digits rest).token = .ok (.literal (.integer value))) : Numeral.Fits value := by
  unfold number at h
  split at h
  · dsimp only at h
    split at h <;> cases h
  · split at h
    · exact fits_of_integerToken h
    · cases h

theorem hash_token_ne_integer (rest : List Char) (value : Int) :
    (hash rest).token ≠ .ok (.literal (.integer value)) := by
  unfold hash
  intro h
  split at h
  · cases h
  · cases h
  · dsimp only at h
    split at h <;> cases h
  · cases h
  · cases h

theorem hash_token_ne_error (rest : List Char) (fault : Fault) :
    (hash rest).token ≠ .error fault := by
  unfold hash
  intro h
  split at h <;> cases h

end Scan

/-- Scanning is stopped by nothing but the length of a numeral. -/
theorem tooLong_of_scan {mode : Mode} {first : Char} {rest : List Char} {fault : Fault}
    (h : (scan mode first rest).token = .error fault) :
    (∃ count, fault = .numeralTooLong count) ∧ HasLongNumeral (first :: rest) := by
  by_cases hdigit : first.isDigit
  · rw [scan.eq_def, if_pos hdigit] at h
    obtain ⟨hfault, hlong⟩ := Scan.tooLong_of_number h
    refine ⟨⟨_, hfault⟩, first :: rest.takeWhile Char.isDigit, ?_, fun c hc => ?_, hlong⟩
    · exact (List.cons_prefix_cons.mpr ⟨rfl, List.takeWhile_prefix _⟩).isInfix
    · rcases List.mem_cons.mp hc with rfl | hmem
      · exact hdigit
      · exact List.mem_takeWhile_imp hmem
  rw [scan.eq_def, if_neg hdigit] at h
  by_cases hhash : first = '#'
  · rw [if_pos hhash] at h
    exact absurd h (Scan.hash_token_ne_error rest fault)
  rw [if_neg hhash] at h
  cases mode with
  | literals => cases h
  | structural =>
    dsimp only at h
    repeat' split at h
    all_goals cases h

/-- An integer that is scanned fits into a word. -/
theorem fits_of_scan {mode : Mode} {first : Char} {rest : List Char} {value : Int}
    (h : (scan mode first rest).token = .ok (.literal (.integer value))) : Numeral.Fits value := by
  by_cases hdigit : first.isDigit
  · rw [scan.eq_def, if_pos hdigit] at h
    exact Scan.fits_of_number h
  rw [scan.eq_def, if_neg hdigit] at h
  by_cases hhash : first = '#'
  · rw [if_pos hhash] at h
    exact absurd h (Scan.hash_token_ne_integer rest value)
  rw [if_neg hhash] at h
  cases mode with
  | literals => cases h
  | structural =>
    dsimp only at h
    repeat' split at h
    all_goals cases h

/-- Being no integer that does not fit into a word. -/
def Lexeme.Fits (lexeme : Lexeme) : Prop :=
  ∀ value, lexeme.token = .ok (.literal (.integer value)) → Numeral.Fits value

theorem Lexeme.fits_of_mem {mode : Mode} {position : Nat} {text : List Char} :
    ∀ lexeme ∈ lexemes mode position text, lexeme.Fits := by
  intro lexeme hmem value h
  obtain ⟨first, rest, _, _, htoken⟩ := Cursor.exists_scan_of_mem_lexemes hmem
  exact fits_of_scan (htoken.symm.trans h)

/-- A lexeme that is no token comes from a numeral that is too long. -/
theorem hasLongNumeral_of_mem_lexemes {mode : Mode} {position : Nat} {text : List Char}
    {lexeme : Lexeme} {fault : Fault} (hmem : lexeme ∈ lexemes mode position text)
    (h : lexeme.token = .error fault) :
    (∃ count, fault = .numeralTooLong count) ∧ HasLongNumeral text := by
  obtain ⟨first, rest, _, hsuffix, htoken⟩ := Cursor.exists_scan_of_mem_lexemes hmem
  obtain ⟨hfault, hlong⟩ := tooLong_of_scan (htoken.symm.trans h)
  exact ⟨hfault, hlong.of_infix hsuffix.isInfix⟩

/-- Without a numeral that is too long every lexeme is a token. -/
theorem exists_token_of_mem_lexemes {mode : Mode} {position : Nat} {text : List Char}
    (h : ¬ HasLongNumeral text) {lexeme : Lexeme} (hmem : lexeme ∈ lexemes mode position text) :
    ∃ token, lexeme.token = .ok token := by
  rcases htoken : lexeme.token with fault | token
  · exact absurd (hasLongNumeral_of_mem_lexemes hmem htoken).2 h
  · exact ⟨token, rfl⟩

/-- Without a numeral that is too long the lexemes are tokens, of which the integers fit. -/
theorem known_of_mem_lexemes {mode : Mode} {position : Nat} {text : List Char}
    (h : ¬ HasLongNumeral text) : ∀ lexeme ∈ lexemes mode position text,
      (∃ token, lexeme.token = .ok token) ∧ lexeme.Fits :=
  fun lexeme hmem => ⟨exists_token_of_mem_lexemes h hmem, Lexeme.fits_of_mem lexeme hmem⟩

/-- A cursor is stopped only in front of a numeral that is too long. -/
theorem Cursor.tooLong_of_next {cursor : Cursor} {fault : Fault}
    (h : cursor.next.1 = .error fault) :
    (∃ count, fault = .numeralTooLong count) ∧ HasLongNumeral cursor.ahead := by
  rcases cursor.lexemes_cases with ⟨_, hend⟩ | ⟨_, spelling, hcons⟩
  · rw [hend] at h
    cases h
  · exact hasLongNumeral_of_mem_lexemes (hcons ▸ List.mem_cons_self) h

end SmallScheme
