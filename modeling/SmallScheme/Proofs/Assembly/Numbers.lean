import Mathlib
import SmallScheme.Assembly.Instruction

/-!
# Numbers in assembly

Decimal numbers are made of digits and a sign, and hexadecimal numbers begin with `0x`. Either way a
number can be told from its text, and no text is a number of both kinds.
-/

namespace SmallScheme.Assembly

/-- Below sixteen, a digit tells its number. -/
theorem eq_of_digitChar_eq {m n : Nat} (hm : m < 16) (hn : n < 16)
    (h : m.digitChar = n.digitChar) : m = n := by
  have hall : ∀ m < 16, ∀ n < 16, Nat.digitChar m = Nat.digitChar n → m = n := by decide
  exact hall m hm n hn h

/-- A number is told from its hexadecimal digits: the last digit is the remainder, and those before
it are the digits of the quotient. -/
theorem eq_of_toDigits_eq {m n : Nat} (h : Nat.toDigits 16 m = Nat.toDigits 16 n) : m = n := by
  have hfront : ∀ {m n : Nat}, 16 ≤ m → n < 16 → Nat.toDigits 16 m ≠ Nat.toDigits 16 n := by
    intro m n hm hn h
    rw [Nat.toDigits_of_base_le (by decide) hm, Nat.toDigits_of_lt_base hn] at h
    have hlength := congrArg List.length h
    have hpos : 0 < (Nat.toDigits 16 (m / 16)).length := Nat.length_toDigits_pos
    simp only [List.length_append, List.length_singleton] at hlength
    omega
  induction m using Nat.strong_induction_on generalizing n with
  | _ m ih =>
    rcases Nat.lt_or_ge m 16 with hm | hm
    · rcases Nat.lt_or_ge n 16 with hn | hn
      · rw [Nat.toDigits_of_lt_base hm, Nat.toDigits_of_lt_base hn] at h
        exact eq_of_digitChar_eq hm hn (List.singleton_inj.mp h)
      · exact absurd h.symm (hfront hn hm)
    · rcases Nat.lt_or_ge n 16 with hn | hn
      · exact absurd h (hfront hm hn)
      · rw [Nat.toDigits_of_base_le (by decide) hm, Nat.toDigits_of_base_le (by decide) hn] at h
        obtain ⟨hquotient, hremainder⟩ := List.append_inj' h rfl
        have hdiv : m / 16 = n / 16 := ih (m / 16) (by omega) hquotient
        have hmod : m % 16 = n % 16 :=
          eq_of_digitChar_eq (by omega) (by omega) (List.singleton_inj.mp hremainder)
        omega

theorem hexadecimal_inj {m n : Nat} : hexadecimal m = hexadecimal n ↔ m = n := by
  refine ⟨fun h => ?_, fun h => h ▸ rfl⟩
  exact eq_of_toDigits_eq (String.ofList_injective ((String.append_right_inj "0x").mp h))

/-- Hexadecimal digits are letters and digits. -/
theorem isAlphanum_of_mem_toDigits {n : Nat} {c : Char} (h : c ∈ Nat.toDigits 16 n) :
    c.isAlphanum := by
  have hall : ∀ n < 16, (Nat.digitChar n).isAlphanum := by decide
  induction n using Nat.strong_induction_on with
  | _ n ih =>
    rcases Nat.lt_or_ge n 16 with hn | hn
    · rw [Nat.toDigits_of_lt_base hn, List.mem_singleton] at h
      exact h ▸ hall n hn
    · rw [Nat.toDigits_of_base_le (by decide) hn, List.mem_append, List.mem_singleton] at h
      rcases h with h | rfl
      · exact ih (n / 16) (by omega) h
      · exact hall _ (Nat.mod_lt n (by decide))

/-- A hexadecimal number begins with `0x`, and letters and digits follow. -/
theorem toList_hexadecimal (n : Nat) :
    (hexadecimal n).toList = '0' :: 'x' :: Nat.toDigits 16 n := by
  simp [hexadecimal]

theorem notMem_hexadecimal {c : Char} (h : c.isAlphanum = false) (n : Nat) :
    c ∉ (hexadecimal n).toList := by
  rw [toList_hexadecimal]
  intro hmem
  have hall : c.isAlphanum := by
    rcases List.mem_cons.mp hmem with rfl | hmem
    · rfl
    · rcases List.mem_cons.mp hmem with rfl | hmem
      · rfl
      · exact isAlphanum_of_mem_toDigits hmem
  exact Bool.false_ne_true (h.symm.trans hall)

/-- A decimal number is made of digits and a sign. -/
theorem isDigit_or_eq_of_mem_toString {value : Int} {c : Char} (h : c ∈ (toString value).toList) :
    c.isDigit ∨ c = '-' := by
  have hdigits : ∀ number : Nat, c ∈ number.repr.toList → c.isDigit := by
    intro number hmem
    rw [Nat.toList_repr] at hmem
    exact Nat.isDigit_of_mem_toDigits (by decide) (by decide) hmem
  rw [Int.toString_eq_repr, Int.repr_eq_if] at h
  split at h
  · exact Or.inl (hdigits _ h)
  · rw [String.toList_append] at h
    rcases List.mem_append.mp h with hsign | hmem
    · exact Or.inr (List.mem_singleton.mp hsign)
    · exact Or.inl (hdigits _ hmem)

theorem toList_toString_ne_nil (value : Int) : (toString value).toList ≠ [] := by
  rw [Int.toString_eq_repr, Int.repr_eq_if]
  split <;> simp

/-- A decimal number begins with a digit or a sign. -/
theorem exists_head?_toString (value : Int) :
    ∃ c, (toString value).toList.head? = some c ∧ (c.isDigit ∨ c = '-') := by
  obtain ⟨c, rest, htext⟩ := List.exists_cons_of_ne_nil (toList_toString_ne_nil value)
  have hmem : c ∈ (toString value).toList := htext ▸ List.mem_cons_self
  exact ⟨c, by rw [htext, List.head?_cons], isDigit_or_eq_of_mem_toString hmem⟩

theorem notMem_toString {c : Char} (hdigit : c.isDigit = false) (hsign : c ≠ '-') (value : Int) :
    c ∉ (toString value).toList := by
  intro hmem
  rcases isDigit_or_eq_of_mem_toString hmem with h | h
  · exact Bool.false_ne_true (hdigit.symm.trans h)
  · exact hsign h

theorem toString_inj {value value' : Int} : toString value = toString value' ↔ value = value' :=
  Int.repr_inj

/-- No text is a decimal and a hexadecimal number. -/
theorem toString_ne_hexadecimal (value : Int) (n : Nat) : toString value ≠ hexadecimal n := by
  intro h
  have hmem : 'x' ∈ (toString value).toList := by simp [h, toList_hexadecimal]
  exact notMem_toString (by decide) (by decide) value hmem

end SmallScheme.Assembly
