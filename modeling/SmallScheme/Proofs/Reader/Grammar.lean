import SmallScheme.Token

/-!
# The grammar of expressions

Which rows of tokens are expressions, and of which data:

    E ::= ATOM | INT | BOOLEAN | QUOTE E | LPAREN E* RPAREN

The grammar is unambiguous in a strong sense: no expression is the beginning of another one
(`Expression.unique`), so a reader needs no look at what comes behind.
-/

namespace SmallScheme.Grammar

mutual

/-- Being the tokens of an expression, with the datum that it is written for. -/
inductive Expression : List Token → Datum → Prop
  | atom (name : Name) : Expression [.atom name] (.symbol name)
  | integer (value : Int) : Expression [.literal (.integer value)] (.integer value)
  | boolean (value : Bool) : Expression [.literal (.boolean value)] (.boolean value)
  | quotation {tokens : List Token} {datum : Datum} : Expression tokens datum →
      Expression (.quoteMark :: tokens) datum.quoted
  | list {tokens : List Token} {items : List Datum} : Row tokens items →
      Expression (.openParen :: (tokens ++ [.closeParen])) (.list items)

/-- Being the tokens of expressions one after the other. -/
inductive Row : List Token → List Datum → Prop
  | nil : Row [] []
  | cons {tokens others : List Token} {datum : Datum} {data : List Datum} :
      Expression tokens datum → Row others data → Row (tokens ++ others) (datum :: data)

end

theorem Row.single {tokens : List Token} {datum : Datum} (h : Expression tokens datum) :
    Row tokens [datum] := by
  simpa using Row.cons h .nil

theorem Row.append {tokens others : List Token} {data rest : List Datum} (h : Row tokens data)
    (hothers : Row others rest) : Row (tokens ++ others) (data ++ rest) := by
  match h with
  | .nil => exact hothers
  | .cons hdatum hdata =>
    rw [List.append_assoc, List.cons_append]
    exact .cons hdatum (hdata.append hothers)

/-- An expression begins with a token, which closes nothing. -/
theorem Expression.exists_cons {tokens : List Token} {datum : Datum} (h : Expression tokens datum) :
    ∃ first rest, tokens = first :: rest ∧ first ≠ .closeParen := by
  cases h <;> exact ⟨_, _, rfl, Token.noConfusion⟩

/-- An expression is not closed before it has begun. -/
theorem Expression.ne_close {tokens rest others : List Token} {datum : Datum}
    (h : Expression tokens datum) : tokens ++ rest ≠ .closeParen :: others := by
  obtain ⟨first, inner, rfl, hfirst⟩ := h.exists_cons
  intro heq
  exact hfirst (List.cons.inj heq).1

/-- A row is not empty if there is an expression in it. -/
theorem Row.ne_nil {tokens : List Token} {datum : Datum} {data : List Datum}
    (h : Row tokens (datum :: data)) : tokens ≠ [] := by
  cases h with
  | cons hdatum _ =>
    obtain ⟨first, rest, rfl, _⟩ := hdatum.exists_cons
    exact List.cons_ne_nil _ _

/-- An expression ends with a token that is known, before the text does, and quotes nothing behind
it. -/
theorem Expression.exists_concat {tokens : List Token} {datum : Datum}
    (h : Expression tokens datum) :
    ∃ front token, tokens = front ++ [token] ∧ token ≠ .unknown ∧ token ≠ .endOfInput ∧
      token ≠ .quoteMark := by
  match h with
  | .atom name => exact ⟨[], _, rfl, nofun, nofun, nofun⟩
  | .integer value => exact ⟨[], _, rfl, nofun, nofun, nofun⟩
  | .boolean value => exact ⟨[], _, rfl, nofun, nofun, nofun⟩
  | .quotation hinner =>
    obtain ⟨front, token, rfl, hends⟩ := hinner.exists_concat
    exact ⟨.quoteMark :: front, token, rfl, hends⟩
  | .list _ => exact ⟨_ :: _, .closeParen, rfl, nofun, nofun, nofun⟩

mutual

/-- No expression is the beginning of another one, and its tokens are written for one datum. -/
theorem Expression.unique {tokens others rest rest' : List Token} {datum other : Datum}
    (h : Expression tokens datum) (hother : Expression others other)
    (heq : tokens ++ rest = others ++ rest') : tokens = others ∧ datum = other := by
  match h, hother with
  | .atom name, .atom name' =>
    cases heq
    exact ⟨rfl, rfl⟩
  | .integer value, .integer value' =>
    cases heq
    exact ⟨rfl, rfl⟩
  | .boolean value, .boolean value' =>
    cases heq
    exact ⟨rfl, rfl⟩
  | .quotation hinner, .quotation hinner' =>
    obtain ⟨rfl, rfl⟩ := hinner.unique hinner' (List.cons.inj heq).2
    exact ⟨rfl, rfl⟩
  | .list hrow, .list hrow' =>
    rw [List.cons_append, List.cons_append, List.append_assoc, List.append_assoc] at heq
    obtain ⟨rfl, rfl⟩ := hrow.unique hrow' (List.cons.inj heq).2
    exact ⟨rfl, rfl⟩

/-- A row of expressions ends where it is closed. -/
theorem Row.unique {tokens others rest rest' : List Token} {data data' : List Datum}
    (h : Row tokens data) (hother : Row others data')
    (heq : tokens ++ .closeParen :: rest = others ++ .closeParen :: rest') :
    tokens = others ∧ data = data' := by
  match h, hother with
  | .nil, .nil => exact ⟨rfl, rfl⟩
  | .nil, .cons hdatum _ =>
    rw [List.append_assoc] at heq
    exact absurd heq.symm hdatum.ne_close
  | .cons hdatum _, .nil =>
    rw [List.append_assoc] at heq
    exact absurd heq hdatum.ne_close
  | .cons hdatum hdata, .cons hdatum' hdata' =>
    rw [List.append_assoc, List.append_assoc] at heq
    obtain ⟨rfl, rfl⟩ := hdatum.unique hdatum' heq
    obtain ⟨rfl, rfl⟩ := hdata.unique hdata' (List.append_cancel_left heq)
    exact ⟨rfl, rfl⟩

end

end SmallScheme.Grammar
