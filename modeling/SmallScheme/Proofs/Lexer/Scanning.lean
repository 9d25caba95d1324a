import SmallScheme.Proofs.Lexer.Spelling

/-!
# Scanning finds what is spelled

What scanning makes a token of spells the token, in both modes (`spelled_of_scan`). In structural
mode nothing else is needed: a piece that spells a token is what scanning takes (`scan_of_spelled`).
-/

namespace SmallScheme

namespace Scan

theorem spelled_of_integerToken {digits rest : List Char} {token : Token} (hne : digits ≠ [])
    (hdigits : ∀ c ∈ digits, c.isDigit) (hends : endsHere rest)
    (h : integerToken digits = .ok token) (hknown : token ≠ .unknown) :
    Spelled digits token rest := by
  unfold integerToken at h
  split at h
  · exact absurd (Except.ok.inj h).symm hknown
  · split at h
    · cases h
    · next hlength =>
      dsimp only at h
      split at h
      · next hfits =>
        cases h
        exact .integer hne hdigits (Nat.le_of_not_lt hlength) hfits.2 hends
      · exact absurd (Except.ok.inj h).symm hknown

theorem spelled_of_number {digits rest : List Char} {token : Token} (hne : digits ≠ [])
    (hdigits : ∀ c ∈ digits, c.isDigit) (h : (number digits rest).token = .ok token)
    (hknown : token ≠ .unknown) :
    Spelled (number digits rest).spelling token (number digits rest).rest := by
  unfold number at h ⊢
  split at h
  · next rest =>
    have htoken := (Except.ok.inj h).symm
    split at htoken
    · next hends =>
      subst htoken
      exact .float hne hdigits (fun c hc => List.mem_takeWhile_imp hc) hends
    · exact absurd htoken hknown
  · split at h
    · next hends => exact spelled_of_integerToken hne hdigits hends h hknown
    · exact absurd (Except.ok.inj h).symm hknown

theorem spelled_of_hash {rest : List Char} {token : Token} (h : (hash rest).token = .ok token)
    (hknown : token ≠ .unknown) : Spelled (hash rest).spelling token (hash rest).rest := by
  unfold hash at h ⊢
  split at h
  · cases h
    exact .boolean true _
  · cases h
    exact .boolean false _
  · have htoken := (Except.ok.inj h).symm
    split at htoken
    · next hends =>
      subst htoken
      exact .character _ hends
    · exact absurd htoken hknown
  · exact absurd (Except.ok.inj h).symm hknown
  · exact absurd (Except.ok.inj h).symm hknown

theorem isAtomName_name {first : Char} (rest : List Char)
    (hblank : Text.isBlank first = false) (hdigit : first.isDigit = false) (hhash : first ≠ '#')
    (hopen : first ≠ '(') (hclose : first ≠ ')') (hquote : first ≠ '\'') :
    IsAtomName (String.ofList (first :: rest.takeWhile continuesName)) where
  start := ⟨first, by simp, hdigit, hhash, hopen, hquote⟩
  unbroken c hc := by
    rw [String.toList_ofList] at hc
    rcases List.mem_cons.mp hc with rfl | hmem
    · exact ⟨hblank, hclose⟩
    · exact unbroken_of_continuesName (List.mem_takeWhile_imp hmem)

/-- What begins neither a number nor another literal is a parenthesis, a quotation mark or a
name. -/
theorem spelled_of_scan_structural {first : Char} {rest : List Char} {token : Token}
    (hblank : Text.isBlank first = false) (hdigit : ¬ first.isDigit) (hhash : first ≠ '#')
    (h : (scan .structural first rest).token = .ok token) :
    Spelled (scan .structural first rest).spelling token (scan .structural first rest).rest := by
  rw [scan, if_neg hdigit, if_neg hhash] at h ⊢
  by_cases hopen : first = '('
  · rw [if_pos hopen] at h ⊢
    cases h
    exact .openParen rest
  rw [if_neg hopen] at h ⊢
  by_cases hclose : first = ')'
  · rw [if_pos hclose] at h ⊢
    cases h
    exact .closeParen rest
  rw [if_neg hclose] at h ⊢
  by_cases hquote : first = '\''
  · rw [if_pos hquote] at h ⊢
    cases h
    exact .quoteMark rest
  rw [if_neg hquote] at h ⊢
  cases h
  have hname := isAtomName_name rest hblank (Bool.eq_false_iff.mpr hdigit) hhash hopen hclose hquote
  have hspelled := Spelled.atom hname (endsHere_dropWhile rest)
  rwa [String.toList_ofList] at hspelled

/-- What scanning makes a token of spells the token. -/
theorem spelled_of_scan {mode : Mode} {first : Char} {rest : List Char} {token : Token}
    (hblank : Text.isBlank first = false) (h : (scan mode first rest).token = .ok token)
    (hknown : token ≠ .unknown) :
    Spelled (scan mode first rest).spelling token (scan mode first rest).rest := by
  by_cases hdigit : first.isDigit
  · rw [scan.eq_def, if_pos hdigit] at h ⊢
    refine spelled_of_number (List.cons_ne_nil _ _) (fun c hc => ?_) h hknown
    rcases List.mem_cons.mp hc with rfl | hmem
    · exact hdigit
    · exact List.mem_takeWhile_imp hmem
  by_cases hhash : first = '#'
  · rw [scan.eq_def, if_neg hdigit, if_pos hhash] at h ⊢
    exact spelled_of_hash h hknown
  cases mode with
  | structural => exact spelled_of_scan_structural hblank hdigit hhash h
  | literals =>
    rw [scan, if_neg hdigit, if_neg hhash] at h
    exact absurd (Except.ok.inj h).symm hknown

theorem isBlank_eq_false_of_isDigit {c : Char} (h : c.isDigit) : Text.isBlank c = false := by
  rw [Bool.eq_false_iff]
  intro hblank
  rw [isDigit_eq_false_of_isBlank hblank] at h
  cases h

/-- Digits in front of an end are a number that scanning converts as far as it fits. -/
theorem number_of_endsHere (digits : List Char) {rest : List Char} (h : endsHere rest) :
    number digits rest = ⟨integerToken digits, digits, rest⟩ := by
  unfold number
  split
  · cases h
  · rw [if_pos h]

theorem integerToken_of_le_greatest {digits : List Char} (hdigits : ∀ c ∈ digits, c.isDigit)
    (hlength : digits.length ≤ Numeral.longest)
    (hgreatest : (Nat.ofDigitChars 10 digits 0 : Int) ≤ Numeral.greatest) :
    integerToken digits = .ok (.literal (.integer (Nat.ofDigitChars 10 digits 0))) := by
  have hsignificant := length_le_of_le_greatest hdigits hgreatest
  have hfits : Numeral.Fits (Nat.ofDigitChars 10 digits 0) := by
    refine ⟨?_, hgreatest⟩
    simp only [Numeral.least]
    omega
  rw [integerToken, if_neg (by omega), if_neg (by omega), if_pos hfits]

/-- Scanning takes a run of digits as a whole. -/
theorem scan_digits (mode : Mode) {first : Char} {digits rest : List Char} (hfirst : first.isDigit)
    (hdigits : ∀ c ∈ digits, c.isDigit) (hrest : ∀ c ∈ rest.head?, c.isDigit = false) :
    scan mode first (digits ++ rest) = number (first :: digits) rest := by
  obtain ⟨htake, hdrop⟩ := takeWhile_append_of_stop hdigits hrest
  unfold scan
  rw [if_pos hfirst, htake, hdrop]

/-- Scanning takes a name as a whole. -/
theorem scan_atom {name : Name} {first : Char} {chars rest : List Char}
    (hchars : name.toList = first :: chars) (hname : IsAtomName name) (hends : endsHere rest) :
    scan .structural first (chars ++ rest) = ⟨.ok (.atom name), name.toList, rest⟩ := by
  obtain ⟨start, hstart, hdigit, hhash, hopen, hquote⟩ := hname.start
  rw [hchars] at hstart
  cases hstart
  have hclose := (hname.unbroken first (by simp [hchars])).2
  have hcontinues : ∀ c ∈ chars, continuesName c := by
    intro c hc
    obtain ⟨hblank, hparen⟩ := hname.unbroken c (by simp [hchars, hc])
    simp [continuesName, hblank, hparen]
  obtain ⟨htake, hdrop⟩ := takeWhile_append_of_stop hcontinues (endsHere_iff.mp hends)
  rw [scan, if_neg (by simp [hdigit]), if_neg hhash, if_neg hopen, if_neg hclose,
    if_neg hquote, Scan.name, htake, hdrop, ← hchars, String.ofList_toList]

end Scan

open Scan in
/-- In structural mode a piece that spells a token is what scanning takes. -/
theorem scan_of_spelled {spelling rest : List Char} {token : Token}
    (h : Spelled spelling token rest) :
    ∃ first chars, spelling = first :: chars ∧ Text.isBlank first = false ∧
      scan .structural first (chars ++ rest) = ⟨.ok token, spelling, rest⟩ := by
  cases h with
  | openParen => exact ⟨'(', [], rfl, rfl, rfl⟩
  | closeParen => exact ⟨')', [], rfl, rfl, rfl⟩
  | quoteMark => exact ⟨'\'', [], rfl, rfl, rfl⟩
  | boolean value => cases value <;> exact ⟨'#', _, rfl, rfl, rfl⟩
  | character c hends =>
    refine ⟨'#', ['\\', c], rfl, rfl, ?_⟩
    change Scan.hash ('\\' :: c :: rest) = _
    rw [Scan.hash, if_pos hends]
  | @integer digits _ hne hdigits hlength hgreatest hends =>
    obtain ⟨first, chars, rfl⟩ := List.exists_cons_of_ne_nil hne
    have hfirst := hdigits first List.mem_cons_self
    refine ⟨first, chars, rfl, isBlank_eq_false_of_isDigit hfirst, ?_⟩
    rw [scan_digits _ hfirst (fun c hc => hdigits c (List.mem_cons_of_mem _ hc))
      (isDigit_eq_false_of_endsHere hends), number_of_endsHere _ hends,
      integerToken_of_le_greatest hdigits hlength hgreatest]
  | @float digits fraction _ hne hdigits hfraction hends =>
    obtain ⟨first, chars, rfl⟩ := List.exists_cons_of_ne_nil hne
    have hfirst := hdigits first List.mem_cons_self
    refine ⟨first, chars ++ '.' :: fraction, rfl, isBlank_eq_false_of_isDigit hfirst, ?_⟩
    obtain ⟨htake, hdrop⟩ :=
      takeWhile_append_of_stop hfraction (isDigit_eq_false_of_endsHere hends)
    have hpoint : ∀ c ∈ ('.' :: (fraction ++ rest)).head?, c.isDigit = false := by
      rintro c ⟨⟩
      rfl
    rw [List.append_assoc, List.cons_append, scan_digits _ hfirst
      (fun c hc => hdigits c (List.mem_cons_of_mem _ hc)) hpoint, number, htake, hdrop,
      if_pos hends]
  | @atom name _ hname hends =>
    obtain ⟨first, hfirst, hdigit, _⟩ := hname.start
    obtain ⟨chars, hchars⟩ := List.head?_eq_some_iff.mp hfirst
    have hblank := (hname.unbroken first (by simp [hchars])).1
    exact ⟨first, chars, hchars, hblank, scan_atom hchars hname hends⟩

end SmallScheme
