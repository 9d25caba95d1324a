import SmallScheme.Reader
import SmallScheme.Proofs.Lexer.Taking
import SmallScheme.Proofs.Reader.Grammar

/-!
# Reading the tokens of an expression

A reader that comes to the tokens of an expression gives its datum to what is open, and stands
behind them (`readFrom_expression`). This takes as many levels as lists are nested in the datum:
with fewer the reading is stopped, whatever comes behind (`readFrom_exhausted`).
-/

namespace SmallScheme

namespace TokenStream

/-- What is left of the tokens of a text of the given length where a cursor stands. -/
def ofCursor (cursor : Cursor) (length : Nat) : TokenStream :=
  ⟨cursor.lexemes, cursor.position, length⟩

theorem ofText_eq_ofCursor (mode : Mode) (text : List Char) :
    ofText mode text = ofCursor (Cursor.ofText mode text) text.length :=
  rfl

end TokenStream

namespace Datum

theorem depth_quoted (datum : Datum) : datum.quoted.depth = datum.depth + 1 := by
  simp [quoted, depth, depthOfAll]

end Datum

namespace Reader

open Cursor (Takes)
open Grammar (Expression Row)

variable {limit length : Nat}

/-- What reading comes to behind a token, given what it made of the token. -/
def resume (limit length : Nat) (after : Cursor) : Progress → Except Fault Datum × TokenStream
  | .complete datum => (.ok datum, .ofCursor after length)
  | .incomplete opened => readFrom limit length opened after.lexemes
  | .stopped fault => (.error fault, .ofCursor after length)

/-- Reading makes of the lexemes ahead what it makes of the next token. -/
theorem readFrom_of_next {opened : List Opened} {cursor after : Cursor} {token : Token}
    (h : cursor.next = (.ok token, after))
    (hne : token ≠ .endOfInput) :
    readFrom limit length opened cursor.lexemes =
      resume limit length after (step limit opened token after.position) := by
  obtain ⟨spelling, hlexemes⟩ := Cursor.lexemes_of_next h hne
  rw [hlexemes, readFrom]
  simp only [stepLexeme]
  cases step limit opened token after.position <;> rfl

theorem deepen_of_lt {inner : Opened} {opened : List Opened} (h : opened.length < limit) :
    deepen limit inner opened = .incomplete (inner :: opened) := by
  rw [deepen, if_pos h]

theorem deepen_of_length_eq {inner : Opened} {opened : List Opened}
    (h : opened.length = limit) :
    deepen limit inner opened = .stopped .exhausted := by
  rw [deepen, if_neg (Nat.not_lt.mpr h.ge)]

/-- A parenthesis or a quotation mark, with levels left, opens what it begins. -/
theorem readFrom_of_deepen (inner : Opened) {opened : List Opened} {cursor after : Cursor}
    {token : Token} (hnext : cursor.next = (.ok token, after)) (hne : token ≠ .endOfInput)
    (hstep : step limit opened token after.position = deepen limit inner opened)
    (hlimit : opened.length < limit) :
    readFrom limit length opened cursor.lexemes =
      readFrom limit length (inner :: opened) after.lexemes := by
  rw [readFrom_of_next hnext hne, hstep, deepen_of_lt hlimit, resume]

/-- A parenthesis or a quotation mark stops the reading when no level is left. -/
theorem readFrom_of_not_deepen (inner : Opened) {opened : List Opened} {cursor after : Cursor}
    {token : Token} (hnext : cursor.next = (.ok token, after)) (hne : token ≠ .endOfInput)
    (hstep : step limit opened token after.position = deepen limit inner opened)
    (hlimit : opened.length = limit) :
    (readFrom limit length opened cursor.lexemes).1 = .error .exhausted := by
  rw [readFrom_of_next hnext hne, hstep, deepen_of_length_eq hlimit, resume]

mutual

/-- The tokens of an expression make the reader supply its datum. -/
theorem readFrom_expression {opened : List Opened} {cursor last : Cursor} {tokens : List Token}
    {datum : Datum} (h : Expression tokens datum) (htakes : Takes cursor tokens last)
    (hlimit : opened.length + datum.depth ≤ limit) :
    readFrom limit length opened cursor.lexemes =
      resume limit length last (supply datum opened) := by
  match h, htakes with
  | .atom name, .next hnext (.none _) => exact readFrom_of_next hnext Token.noConfusion
  | .integer value, .next hnext (.none _) => exact readFrom_of_next hnext Token.noConfusion
  | .boolean value, .next hnext (.none _) => exact readFrom_of_next hnext Token.noConfusion
  | .quotation hinner, .next hnext hrest =>
    rw [Datum.depth_quoted] at hlimit
    rw [readFrom_of_deepen .quotation hnext Token.noConfusion rfl (by omega)]
    exact readFrom_expression hinner hrest (by rw [List.length_cons]; omega)
  | .list hrow, .next hnext hrest =>
    rw [Datum.depth] at hlimit
    obtain ⟨close, hinner, hclose⟩ := hrest.split
    rw [readFrom_of_deepen (.list []) hnext Token.noConfusion rfl (by omega),
      readFrom_row hrow hinner (by omega)]
    -- The row has been read into the list just opened, which its parenthesis now completes.
    cases hclose with
    | next hnext hnone =>
      cases hnone
      rw [readFrom_of_next hnext Token.noConfusion]
      simp [step]

/-- The tokens of a row make the reader add its data to the open list. -/
theorem readFrom_row {opened : List Opened} {cursor last : Cursor} {tokens : List Token}
    {members items : List Datum} (h : Row tokens items) (htakes : Takes cursor tokens last)
    (hlimit : opened.length + 1 + Datum.depthOfAll items ≤ limit) :
    readFrom limit length (.list members :: opened) cursor.lexemes =
      readFrom limit length (.list (items.reverse ++ members) :: opened) last.lexemes := by
  match h with
  | .nil =>
    cases htakes
    rfl
  | .cons hdatum hdata =>
    rw [Datum.depthOfAll] at hlimit
    obtain ⟨middle, hfirst, hothers⟩ := htakes.split
    rw [readFrom_expression hdatum hfirst (by rw [List.length_cons]; omega), supply, resume,
      readFrom_row hdata hothers (by omega), List.reverse_cons, List.append_assoc,
      List.singleton_append]

end

mutual

/-- The tokens of an expression stop the reader if too few levels are left for its datum. -/
theorem readFrom_exhausted {opened : List Opened} {cursor last : Cursor} {tokens : List Token}
    {datum : Datum} (h : Expression tokens datum) (htakes : Takes cursor tokens last)
    (hopened : opened.length ≤ limit) (hlimit : limit < opened.length + datum.depth) :
    (readFrom limit length opened cursor.lexemes).1 = .error .exhausted := by
  match h, htakes with
  | .atom name, _ => exact absurd hlimit (Nat.not_lt.mpr hopened)
  | .integer value, _ => exact absurd hlimit (Nat.not_lt.mpr hopened)
  | .boolean value, _ => exact absurd hlimit (Nat.not_lt.mpr hopened)
  | .quotation hinner, .next hnext hrest =>
    rw [Datum.depth_quoted] at hlimit
    rcases Nat.eq_or_lt_of_le hopened with hfull | hlt
    · exact readFrom_of_not_deepen .quotation hnext Token.noConfusion rfl hfull
    · rw [readFrom_of_deepen .quotation hnext Token.noConfusion rfl hlt]
      exact readFrom_exhausted hinner hrest hlt (by rw [List.length_cons]; omega)
  | .list hrow, .next hnext hrest =>
    rw [Datum.depth] at hlimit
    rcases Nat.eq_or_lt_of_le hopened with hfull | hlt
    · exact readFrom_of_not_deepen (.list []) hnext Token.noConfusion rfl hfull
    · rw [readFrom_of_deepen (.list []) hnext Token.noConfusion rfl hlt]
      obtain ⟨close, hinner, _⟩ := hrest.split
      exact readFrom_row_exhausted hrow hinner hlt (by omega)

theorem readFrom_row_exhausted {opened : List Opened} {cursor last : Cursor}
    {tokens : List Token} {members items : List Datum} (h : Row tokens items)
    (htakes : Takes cursor tokens last) (hopened : opened.length < limit)
    (hlimit : limit < opened.length + 1 + Datum.depthOfAll items) :
    (readFrom limit length (.list members :: opened) cursor.lexemes).1 = .error .exhausted := by
  match h with
  | .nil => exact absurd hlimit (Nat.not_lt.mpr hopened)
  | @Row.cons _ _ datum data hdatum hdata =>
    rw [Datum.depthOfAll] at hlimit
    obtain ⟨middle, hfirst, hothers⟩ := htakes.split
    rcases Nat.lt_or_ge limit (opened.length + 1 + datum.depth) with hdeep | hdepth
    · exact readFrom_exhausted hdatum hfirst hopened hdeep
    · rw [readFrom_expression hdatum hfirst hdepth, supply, resume]
      exact readFrom_row_exhausted hdata hothers hopened (by omega)

end

end Reader

end SmallScheme
