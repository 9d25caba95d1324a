import SmallScheme.Proofs.Data.Readable
import SmallScheme.Proofs.Lexer.Taking
import SmallScheme.Proofs.Reader.Grammar

/-!
# Printed data are expressions

The program text of a datum is cut into the tokens of an expression of that datum, in front of
anything that ends a name (`Datum.printsExpression`). This needs only that each integer and each
symbol in the datum can be written; what is printed between them never runs together with them.
-/

namespace SmallScheme

open Cursor (Takes)
open Grammar (Expression Row)
open Scan (endsHere)

/-- Being cut into some tokens in front of a text, wherever it stands. -/
def Writes (text : List Char) (tokens : List Token) (rest : List Char) : Prop :=
  ∀ position, Takes ⟨.structural, position, text ++ rest⟩ tokens
    ⟨.structural, position + text.length, rest⟩

theorem Writes.nil (rest : List Char) : Writes [] [] rest :=
  fun _ => .none _

/-- A piece that spells a token is cut into it. -/
theorem Spelled.writes {spelling rest : List Char} {token : Token}
    (h : Spelled spelling token rest) : Writes spelling [token] rest := by
  intro position
  obtain ⟨first, chars, rfl, hblank, hscan⟩ := scan_of_spelled h
  have hahead : (first :: chars ++ rest).dropWhile Text.isBlank = first :: (chars ++ rest) :=
    List.dropWhile_cons_of_neg (by simp [hblank])
  have htake : (first :: chars ++ rest).takeWhile Text.isBlank = [] :=
    List.takeWhile_cons_of_neg (by simp [hblank])
  refine .single ?_
  rw [Cursor.next_of_cons hahead, hscan]
  simp only [Cursor.skipBlanks, Cursor.takeWhile, Cursor.moved, htake]
  rfl

theorem Writes.append {text others rest : List Char} {tokens more : List Token}
    (h : Writes text tokens (others ++ rest)) (hothers : Writes others more rest) :
    Writes (text ++ others) (tokens ++ more) rest := by
  intro position
  rw [List.append_assoc, List.length_append, ← Nat.add_assoc]
  exact (h position).append (hothers (position + text.length))

/-- A space in front of tokens is skipped. -/
theorem Writes.space {text rest : List Char} {tokens : List Token} (h : Writes text tokens rest)
    (hne : tokens ≠ []) : Writes (' ' :: text) tokens rest := by
  intro position
  rw [List.length_cons, Nat.add_comm text.length, ← Nat.add_assoc]
  exact (h (position + 1)).of_next_eq (Cursor.next_of_isBlank rfl) hne

namespace Datum

/-- The decimal digits of a number spell it, if a program can write it. -/
theorem spelled_toString {value : Int} {rest : List Char} (hpos : 0 ≤ value)
    (hgreatest : value ≤ Numeral.greatest) (hends : endsHere rest) :
    Spelled (toString value).toList (.literal (.integer value)) rest := by
  obtain ⟨number, rfl⟩ := Int.eq_ofNat_of_zero_le hpos
  have hdigits : (toString (number : Int)).toList = Nat.toDigits 10 number := by
    rw [Int.toString_eq_repr, Int.repr_eq_if, if_pos hpos, Int.toNat_natCast, Nat.toList_repr]
  have hvalue : Nat.ofDigitChars 10 (Nat.toDigits 10 number) 0 = number :=
    Nat.ofDigitChars_ten_toDigits
  have hshort : (Nat.toDigits 10 number).length ≤ Scan.greatestLength := by
    rw [Nat.length_toDigits_le_iff (by decide) (by decide)]
    simp only [Numeral.greatest, Scan.greatestLength] at hgreatest ⊢
    omega
  have hlength := Nat.le_trans hshort (by decide : Scan.greatestLength ≤ Numeral.longest)
  have h := Spelled.integer Nat.toDigits_ne_nil
    (fun c hc => Nat.isDigit_of_mem_toDigits (by decide) (by decide) hc) hlength
    (by rw [hvalue]; exact hgreatest) hends
  rw [hvalue] at h
  rw [hdigits]
  exact h

/-- A list is printed as a quotation, or as its members in parentheses. -/
theorem print_list_cases (items : List Datum) :
    (∃ datum, items = [.symbol "quote", datum] ∧
      (Datum.list items).print = "'" ++ datum.print) ∨
    (Datum.list items).print = "(" ++ printAll items ++ ")" := by
  by_cases h : ∃ datum, items = [.symbol "quote", datum]
  · obtain ⟨datum, rfl⟩ := h
    exact Or.inl ⟨datum, rfl, by rw [print]⟩
  · right
    rw [print]
    rintro datum rfl
    exact h ⟨datum, rfl⟩

/-- Being printed as the tokens of an expression, in front of anything that ends a name. -/
def PrintsExpression (datum : Datum) : Prop :=
  ∀ rest, endsHere rest → ∃ tokens, Writes datum.print.toList tokens rest ∧
    Expression tokens datum

/-- Data that are printed as expressions are printed as a row of them. -/
theorem exists_row_printAll {items : List Datum} (h : ∀ item ∈ items, PrintsExpression item)
    {rest : List Char} (hends : endsHere rest) :
    ∃ tokens, Writes (printAll items).toList tokens rest ∧ Row tokens items := by
  induction items with
  | nil => exact ⟨[], Writes.nil rest, .nil⟩
  | cons item items ih =>
    cases items with
    | nil =>
      obtain ⟨tokens, hwrites, hexpression⟩ := h item List.mem_cons_self rest hends
      exact ⟨tokens, by rwa [printAll], .single hexpression⟩
    | cons next items =>
      obtain ⟨others, hothers, hrow⟩ := ih fun item hitem => h item (List.mem_cons_of_mem _ hitem)
      -- The space in front of the next member ends this one, whatever it is.
      obtain ⟨tokens, hwrites, hexpression⟩ :=
        h item List.mem_cons_self (' ' :: (printAll (next :: items)).toList ++ rest) rfl
      refine ⟨tokens ++ others, ?_, .cons hexpression hrow⟩
      rw [printAll, String.toList_append, String.toList_append, List.append_assoc]
      · exact hwrites.append (hothers.space hrow.ne_nil)
      · exact List.cons_ne_nil _ _

/-- A datum is printed as an expression if its integers and symbols can be written. -/
theorem printsExpression {datum : Datum} (h : datum.Expressible) (hreadable : datum.Readable) :
    datum.PrintsExpression := by
  intro rest hends
  induction h generalizing rest with
  | boolean value =>
    refine ⟨_, ?_, .boolean value⟩
    cases value with
    | true => exact (Spelled.boolean true rest).writes
    | false => exact (Spelled.boolean false rest).writes
  | integer value =>
    obtain ⟨hpos, hgreatest⟩ := hreadable.integers value .self
    exact ⟨_, (spelled_toString hpos hgreatest hends).writes, .integer value⟩
  | symbol name =>
    exact ⟨_, (Spelled.atom (hreadable.names name .self) hends).writes, .atom name⟩
  | @list items _ ih =>
    have hitems : ∀ item ∈ items, PrintsExpression item := by
      intro item hitem
      exact ih item hitem (readable_list_iff.mp hreadable item hitem)
    rcases print_list_cases items with ⟨datum, rfl, hprint⟩ | hprint
    · obtain ⟨tokens, hwrites, hexpression⟩ := hitems datum (by simp) rest hends
      refine ⟨.quoteMark :: tokens, ?_, .quotation hexpression⟩
      rw [hprint, String.toList_append]
      exact (Spelled.quoteMark _).writes.append hwrites
    · have hclose : endsHere (')' :: rest) := rfl
      obtain ⟨tokens, hwrites, hrow⟩ := exists_row_printAll hitems hclose
      refine ⟨.openParen :: (tokens ++ [.closeParen]), ?_, .list hrow⟩
      rw [hprint, String.toList_append, String.toList_append, List.append_assoc]
      exact (Spelled.openParen _).writes.append (hwrites.append (Spelled.closeParen rest).writes)

end Datum

end SmallScheme
