import Mathlib.Data.List.TakeWhile
import SmallScheme.Lexer.Scan

/-!
# How tokens are spelled

`Spelled` says which pieces of text spell a token, and in front of which text. What a piece is made
of decides where it ends: digits and the characters of a name go on until something else comes.
-/

namespace SmallScheme

/-- The names that a program can write. -/
structure IsAtomName (name : Name) : Prop where
  /-- A name does not begin like another token. -/
  start : ∃ first ∈ name.toList.head?,
    first.isDigit = false ∧ first ≠ '#' ∧ first ≠ '(' ∧ first ≠ '\''
  /-- A name does not contain what ends it. -/
  unbroken : ∀ c ∈ name.toList, Text.isBlank c = false ∧ c ≠ ')'

/-- Spelling a token in front of a text. Lists and quotations may be followed by anything, other
literals and names only by what ends them. -/
inductive Spelled : List Char → Token → List Char → Prop
  | openParen (rest : List Char) : Spelled ['('] .openParen rest
  | closeParen (rest : List Char) : Spelled [')'] .closeParen rest
  | quoteMark (rest : List Char) : Spelled ['\''] .quoteMark rest
  | boolean (value : Bool) (rest : List Char) :
      Spelled ['#', if value then 't' else 'f'] (.literal (.boolean value)) rest
  | character (c : Char) {rest : List Char} : Scan.endsHere rest →
      Spelled ['#', '\\', c] (.literal (.character (String.singleton c))) rest
  | integer {digits rest : List Char} : digits ≠ [] → (∀ c ∈ digits, c.isDigit) →
      digits.length ≤ Numeral.longest → (Nat.ofDigitChars 10 digits 0 : Int) ≤ Numeral.greatest →
      Scan.endsHere rest →
      Spelled digits (.literal (.integer (Nat.ofDigitChars 10 digits 0))) rest
  | float {digits fraction rest : List Char} : digits ≠ [] → (∀ c ∈ digits, c.isDigit) →
      (∀ c ∈ fraction, c.isDigit) → Scan.endsHere rest →
      Spelled (digits ++ '.' :: fraction)
        (.literal (.float (Double.ofDecimal digits fraction))) rest
  | atom {name : Name} {rest : List Char} : IsAtomName name → Scan.endsHere rest →
      Spelled name.toList (.atom name) rest

/-- The end of a text is not spelled. -/
theorem Spelled.ne_endOfInput {spelling rest : List Char} {token : Token}
    (h : Spelled spelling token rest) : token ≠ .endOfInput := by
  cases h <;> exact Token.noConfusion

/-- Being tokens that are spelled somewhere, but for the token at the end and pieces that are no
tokens. -/
def AllSpelled (tokens : List Token) : Prop :=
  ∀ token ∈ tokens, token ≠ .unknown → token ≠ .endOfInput →
    ∃ spelling rest, Spelled spelling token rest

theorem AllSpelled.of_subset {tokens others : List Token} (h : AllSpelled tokens)
    (hsubset : others ⊆ tokens) : AllSpelled others :=
  fun token hmem => h token (hsubset hmem)

namespace Scan

theorem isDigit_eq_false_of_isBlank {c : Char} (h : Text.isBlank c) : c.isDigit = false := by
  rw [Bool.eq_false_iff]
  intro hdigit
  have hrange := Char.isDigit_iff_toNat.mp hdigit
  have hzero : '0'.toNat = 48 := rfl
  have hnine : '9'.toNat = 57 := rfl
  simp only [Text.isBlank, Bool.or_eq_true, Bool.and_eq_true, decide_eq_true_eq, beq_iff_eq] at h
  omega

/-- The characters that a name is made of are what it may contain. -/
theorem unbroken_of_continuesName {c : Char} (h : continuesName c) :
    Text.isBlank c = false ∧ c ≠ ')' := by
  simpa [continuesName] using h

/-- A text that ends a literal begins with nothing that continues a name. -/
theorem endsHere_iff {rest : List Char} :
    endsHere rest ↔ ∀ c ∈ rest.head?, continuesName c = false := by
  cases rest with
  | nil => simp [endsHere]
  | cons c rest => cases hblank : Text.isBlank c <;> simp [endsHere, continuesName, hblank]

theorem isDigit_eq_false_of_endsHere {rest : List Char} (h : endsHere rest) :
    ∀ c ∈ rest.head?, c.isDigit = false := by
  intro c hc
  have hends := endsHere_iff.mp h c hc
  simp only [continuesName, Bool.and_eq_false_iff, Bool.not_eq_false', bne_eq_false_iff_eq] at hends
  rcases hends with hblank | rfl
  · exact isDigit_eq_false_of_isBlank hblank
  · rfl

theorem endsHere_dropWhile (rest : List Char) : endsHere (rest.dropWhile continuesName) := by
  rw [endsHere_iff]
  intro c hc
  have h := List.head?_dropWhile_not continuesName rest
  rw [Option.mem_def.mp hc] at h
  simpa using h

/-- A piece that passes a test, in front of a text that begins with something that fails it, is
what is taken while the test is passed. -/
theorem takeWhile_append_of_stop {test : Char → Bool} {piece rest : List Char}
    (hpiece : ∀ c ∈ piece, test c) (hrest : ∀ c ∈ rest.head?, test c = false) :
    (piece ++ rest).takeWhile test = piece ∧ (piece ++ rest).dropWhile test = rest := by
  rw [List.takeWhile_append_of_pos hpiece, List.dropWhile_append_of_pos hpiece]
  cases rest with
  | nil => simp
  | cons c rest => simp [hrest c rfl]

/-- Digits without the zeros in front write at least as great a power of ten as there are digits
behind the first. -/
theorem tenTo_le_ofDigitChars {first : Char} {digits : List Char} (hdigit : first.isDigit)
    (hzero : first ≠ '0') :
    Numeral.tenTo digits.length ≤ Nat.ofDigitChars 10 (first :: digits) 0 := by
  have hrange := Char.isDigit_iff_toNat.mp hdigit
  have hne : first.toNat ≠ '0'.toNat := fun h => hzero (Char.toNat_inj.mp h)
  have hpos : 1 ≤ 10 * 0 + (first.toNat - '0'.toNat) := by omega
  rw [Nat.ofDigitChars_cons, Nat.ofDigitChars_eq_ofDigitChars_zero]
  calc Numeral.tenTo digits.length = Numeral.tenTo digits.length * 1 := (Nat.mul_one _).symm
    _ ≤ Numeral.tenTo digits.length * (10 * 0 + (first.toNat - '0'.toNat)) :=
      Nat.mul_le_mul_left _ hpos
    _ ≤ _ := Nat.le_add_right _ _

/-- Zeros in front do not count. -/
theorem ofDigitChars_dropWhile (digits : List Char) :
    Nat.ofDigitChars 10 (digits.dropWhile (· == '0')) 0 = Nat.ofDigitChars 10 digits 0 := by
  induction digits with
  | nil => rfl
  | cons c digits ih =>
    by_cases hc : c = '0'
    · subst hc
      rw [List.dropWhile_cons_of_pos (by decide), ih, Nat.ofDigitChars_cons]
      rfl
    · rw [List.dropWhile_cons_of_neg (by simpa using hc)]

/-- Digits write less than the power of ten that has one digit more. -/
theorem ofDigitChars_lt_tenTo {digits : List Char} (hdigits : ∀ c ∈ digits, c.isDigit) :
    Nat.ofDigitChars 10 digits 0 < Numeral.tenTo digits.length := by
  induction digits with
  | nil => decide
  | cons c digits ih =>
    have hrest := ih fun d hd => hdigits d (List.mem_cons_of_mem c hd)
    have hrange := Char.isDigit_iff_toNat.mp (hdigits c List.mem_cons_self)
    have hdigit : 10 * 0 + (c.toNat - '0'.toNat) ≤ 9 := by
      have hzero : '0'.toNat = 48 := rfl
      have hnine : '9'.toNat = 57 := rfl
      omega
    have hpow : Numeral.tenTo (digits.length + 1) = Numeral.tenTo digits.length * 10 := rfl
    rw [Nat.ofDigitChars_cons, Nat.ofDigitChars_eq_ofDigitChars_zero, List.length_cons, hpow]
    calc Numeral.tenTo digits.length * (10 * 0 + (c.toNat - '0'.toNat)) + _
        ≤ Numeral.tenTo digits.length * 9 + _ :=
          Nat.add_le_add_right (Nat.mul_le_mul_left _ hdigit) _
      _ < Numeral.tenTo digits.length * 10 := by omega

/-- As many digits count as the greatest number has just if less is written than the power of ten
that has one digit more. -/
theorem length_significant_le_iff {digits : List Char} (hdigits : ∀ c ∈ digits, c.isDigit) :
    (digits.dropWhile (· == '0')).length ≤ greatestLength ↔
      Nat.ofDigitChars 10 digits 0 < Numeral.tenTo greatestLength := by
  have hsignificant : ∀ c ∈ digits.dropWhile (· == '0'), c.isDigit := fun c hc =>
    hdigits c ((List.dropWhile_suffix _).subset hc)
  rw [← ofDigitChars_dropWhile]
  constructor
  · intro h
    exact (ofDigitChars_lt_tenTo hsignificant).trans_le (Nat.pow_le_pow_right (by decide) h)
  · intro h
    cases hcount : digits.dropWhile (· == '0') with
    | nil => exact Nat.zero_le _
    | cons first rest =>
      have hstop := List.head?_dropWhile_not (· == '0') digits
      rw [hcount] at h hsignificant hstop
      have hpow : Numeral.tenTo rest.length ≤ Nat.ofDigitChars 10 (first :: rest) 0 :=
        tenTo_le_ofDigitChars (hsignificant first List.mem_cons_self) (by simpa using hstop)
      exact (Nat.pow_lt_pow_iff_right (by decide)).mp (hpow.trans_lt h)

/-- A number that a program can write has no more digits than the greatest one. -/
theorem length_le_of_le_greatest {digits : List Char} (hdigits : ∀ c ∈ digits, c.isDigit)
    (h : (Nat.ofDigitChars 10 digits 0 : Int) ≤ Numeral.greatest) :
    (digits.dropWhile (· == '0')).length ≤ greatestLength := by
  have hword : Numeral.greatest < Numeral.tenTo greatestLength := by decide
  exact (length_significant_le_iff hdigits).mpr (by omega)

end Scan

/-- A name can be written if it begins like one and goes on like one. -/
theorem isAtomName_of_all {name : Name}
    (hstart : ∃ first ∈ name.toList.head?,
      first.isDigit = false ∧ first ≠ '#' ∧ first ≠ '(' ∧ first ≠ '\'')
    (hall : name.toList.all Scan.continuesName) : IsAtomName name where
  start := hstart
  unbroken c hc := Scan.unbroken_of_continuesName (List.all_eq_true.mp hall c hc)

end SmallScheme
