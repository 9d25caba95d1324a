import SmallScheme.Proofs.Reader.Words

/-!
# What is open stands for the tokens before it

The tokens that the reader has taken are the beginning of an expression, and what is open says how
they begin it (`Opens`). Each token keeps this up (`step_follows`), so the reader completes an
expression only behind the tokens of one (`readFrom_sound`), and it takes exactly these tokens:
reading decides the grammar (`read_ofText_iff_begins`).
-/

namespace SmallScheme

namespace Reader

open Cursor (Takes)
open Grammar (Expression Row)

/-- Beginning an expression with some tokens, and being left with something open. -/
inductive Opens : List Token → List Opened → Prop
  | nothing : Opens [] []
  | quotation {tokens : List Token} {outer : List Opened} : Opens tokens outer →
      Opens (tokens ++ [.quoteMark]) (.quotation :: outer)
  | list {tokens row : List Token} {members : List Datum} {outer : List Opened} :
      Opens tokens outer → Row row members.reverse →
      Opens (tokens ++ .openParen :: row) (.list members :: outer)

/-- Being what reading has to make of some tokens. -/
def Follows (tokens : List Token) : Progress → Prop
  | .complete datum => Expression tokens datum
  | .incomplete opened => Opens tokens opened
  | .stopped _ => True

variable {limit length position : Nat} {opened : List Opened} {tokens others : List Token}
  {token : Token} {datum : Datum} {cursor : Cursor} {after : TokenStream}

/-- An expression goes on with what is open. -/
theorem supply_follows (h : Opens tokens opened) (hdatum : Expression others datum) :
    Follows (tokens ++ others) (supply datum opened) := by
  induction h generalizing others datum with
  | nothing => exact hdatum
  | quotation _ ih =>
    rw [List.append_assoc]
    exact ih (.quotation hdatum)
  | list houter hrow =>
    rw [List.append_assoc, List.cons_append]
    refine Opens.list houter ?_
    rw [List.reverse_cons]
    exact hrow.append (.single hdatum)

/-- What is begun goes on with what is open if a level is left. -/
theorem deepen_follows {inner : Opened} (h : Opens (tokens ++ [token]) (inner :: opened)) :
    Follows (tokens ++ [token]) (deepen limit inner opened) := by
  unfold deepen
  split
  · exact h
  · trivial

/-- A closing parenthesis completes the innermost list. -/
theorem close_follows {members : List Datum} (h : Opens tokens (.list members :: opened)) :
    Follows (tokens ++ [.closeParen]) (supply (.list members.reverse) opened) := by
  cases h with
  | list houter hrow =>
    rw [List.append_assoc, List.cons_append]
    exact supply_follows houter (.list hrow)

/-- Each token goes on with what is open, or it stops the reading. -/
theorem step_follows (h : Opens tokens opened) :
    Follows (tokens ++ [token]) (step limit opened token position) := by
  cases token with
  | openParen => exact deepen_follows (.list h .nil)
  | quoteMark => exact deepen_follows (.quotation h)
  | closeParen =>
    match opened with
    | [] => trivial
    | .quotation :: _ => trivial
    | .list _ :: _ => exact close_follows h
  | atom name => exact supply_follows h (.atom name)
  | literal value =>
    cases value with
    | integer value => exact supply_follows h (.integer value)
    | boolean value => exact supply_follows h (.boolean value)
    | float value => trivial
    | character text => trivial
  | unknown => trivial
  | endOfInput => trivial

/-- What is read is written by the tokens before and the tokens taken, and the reader stands behind
these. -/
theorem readFrom_sound (h : Opens tokens opened)
    (hread : readFrom limit length opened cursor.lexemes = (.ok datum, after)) :
    ∃ inner last, Takes cursor inner last ∧ Expression (tokens ++ inner) datum ∧
      after = .ofCursor last length := by
  induction hlexemes : cursor.lexemes generalizing cursor tokens opened with
  | nil =>
    rw [hlexemes, readFrom] at hread
    cases hread
  | cons lexeme rest ih =>
    obtain ⟨htoken, hposition, hrest⟩ := Cursor.next_of_lexemes hlexemes
    rw [hlexemes, readFrom, stepLexeme, ← htoken, ← hposition, ← hrest] at hread
    cases hnext : cursor.next.1 with
    | error fault =>
      rw [hnext] at hread
      cases hread
    | ok token =>
      have htake : cursor.next = (.ok token, cursor.next.2) := Prod.ext hnext rfl
      have hfollows : Follows (tokens ++ [token])
        (step limit opened token cursor.next.2.position) := step_follows h
      rw [hnext] at hread
      dsimp only at hread
      cases hstep : step limit opened token cursor.next.2.position with
      | complete result =>
        rw [hstep] at hread hfollows
        cases hread
        exact ⟨[token], cursor.next.2, .single htake, hfollows, rfl⟩
      | incomplete inner =>
        -- What is open now stands for one token more, and one lexeme less is ahead.
        rw [hstep] at hread hfollows
        obtain ⟨others, last, htakes, hexpression, hafter⟩ := ih hfollows hread hrest
        rw [List.append_assoc] at hexpression
        exact ⟨token :: others, last, .next htake htakes, hexpression, hafter⟩
      | stopped fault =>
        rw [hstep] at hread
        cases hread

end Reader

namespace Grammar

open Cursor (Takes)

/-- Being the tokens in front of a cursor that are an expression, with its datum and the place
behind them. -/
structure Begins (cursor : Cursor) (tokens : List Token) (datum : Datum) (last : Cursor) :
    Prop where
  expression : Expression tokens datum
  takes : Takes cursor tokens last

variable {cursor last last' : Cursor} {tokens tokens' : List Token} {datum datum' : Datum}

/-- No more than one of the rows of tokens that a cursor can take is an expression. -/
theorem Begins.unique (h : Begins cursor tokens datum last)
    (h' : Begins cursor tokens' datum' last') :
    tokens = tokens' ∧ datum = datum' ∧ last = last' := by
  have heq : tokens = tokens' ∧ datum = datum' := by
    rcases Nat.le_total tokens.length tokens'.length with hle | hle
    · obtain ⟨rest, hrest⟩ := h.takes.exists_append_of_length_le h'.takes hle
      have hsame : tokens ++ rest = tokens' ++ [] := by rw [hrest, List.append_nil]
      exact h.expression.unique h'.expression hsame
    · obtain ⟨rest, hrest⟩ := h'.takes.exists_append_of_length_le h.takes hle
      have hsame : tokens ++ [] = tokens' ++ rest := by rw [hrest, List.append_nil]
      exact h.expression.unique h'.expression hsame
  obtain ⟨rfl, rfl⟩ := heq
  exact ⟨rfl, rfl, (h.takes.eq_of_length h'.takes rfl).2⟩

/-- The place behind an expression is right behind the last character of its last token. -/
theorem Begins.spelled_last {mode : Mode} {text : List Char}
    (h : Begins (Cursor.ofText mode text) tokens datum last) :
    last.ahead = text.drop last.position ∧ ∃ token ∈ tokens.getLast?, ∃ spelling,
      Spelled spelling token last.ahead ∧ spelling <:+ text.take last.position := by
  obtain ⟨front, token, rfl, hknown, hne, _⟩ := h.expression.exists_concat
  obtain ⟨hahead, hspelled⟩ := h.takes.spelled_last hknown hne
  exact ⟨hahead, token, List.getLast?_concat, hspelled⟩

end Grammar

namespace TokenStream

open Grammar (Begins)

variable {limits : Limits} {cursor last : Cursor} {length : Nat} {tokens : List Token}
  {datum : Datum} {after : TokenStream}

/-- The tokens of an expression are read, and no others. -/
theorem read_of_begins (h : Begins cursor tokens datum last)
    (hlimit : datum.depth ≤ limits.reading) :
    (ofCursor cursor length).read limits = (.ok datum, ofCursor last length) := by
  refine Reader.readFrom_expression h.expression h.takes ?_
  rw [List.length_nil]
  omega

/-- An expression that is nested too deeply stops the reading at the limit. -/
theorem read_exhausted (h : Begins cursor tokens datum last)
    (hlimit : limits.reading < datum.depth) :
    ((ofCursor cursor length).read limits).1 = .error .exhausted := by
  refine Reader.readFrom_exhausted h.expression h.takes (Nat.zero_le _) ?_
  rw [List.length_nil]
  omega

/-- What is read is written by the tokens that are taken, and not nested too deeply. -/
theorem begins_of_read (h : (ofCursor cursor length).read limits = (.ok datum, after)) :
    datum.depth ≤ limits.reading ∧
      ∃ tokens last, Begins cursor tokens datum last ∧ after = ofCursor last length := by
  obtain ⟨tokens, last, htakes, hexpression, hafter⟩ := Reader.readFrom_sound .nothing h
  have hbegins : Begins cursor tokens datum last := ⟨hexpression, htakes⟩
  refine ⟨Nat.le_of_not_lt fun hdeep => ?_, tokens, last, hbegins, hafter⟩
  have hexhausted : ((ofCursor cursor length).read limits).1 = .error .exhausted :=
    read_exhausted hbegins hdeep
  rw [h] at hexhausted
  cases hexhausted

/-- Within the limits an expression is read from a text just if the text begins with its tokens.
These are taken and no others, so that the reader stands right behind the last of them. A text
begins with the tokens of no more than one expression. One that is nested too deeply is not mistaken
for a text without an expression. -/
theorem read_ofText_iff_begins (limits : Limits) (mode : Mode) (text : List Char) :
    (∀ datum after, (ofText mode text).read limits = (.ok datum, after) ↔
      datum.depth ≤ limits.reading ∧ ∃ tokens last,
        Begins (Cursor.ofText mode text) tokens datum last ∧
          after = ofCursor last text.length) ∧
    (∀ tokens datum last, Begins (Cursor.ofText mode text) tokens datum last →
      last.ahead = text.drop last.position ∧ ∃ token ∈ tokens.getLast?, ∃ spelling,
        Spelled spelling token last.ahead ∧ spelling <:+ text.take last.position) ∧
    (∀ tokens tokens' datum datum' last last',
      Begins (Cursor.ofText mode text) tokens datum last →
      Begins (Cursor.ofText mode text) tokens' datum' last' →
        tokens = tokens' ∧ datum = datum' ∧ last = last') ∧
    (∀ tokens datum last, Begins (Cursor.ofText mode text) tokens datum last →
      limits.reading < datum.depth → ((ofText mode text).read limits).1 = .error .exhausted) := by
  rw [ofText_eq_ofCursor]
  refine ⟨fun datum after => ⟨begins_of_read, ?_⟩, ?_, ?_, ?_⟩
  · rintro ⟨hlimit, tokens, last, h, rfl⟩
    exact read_of_begins h hlimit
  · intro tokens datum last h
    exact h.spelled_last
  · intro tokens tokens' datum datum' last last' h h'
    exact h.unique h'
  · intro tokens datum last h hdeep
    exact read_exhausted h hdeep

/-- Behind a list with a quotation in it the reader stands in front of a name. -/
theorem read_ofText_quotation :
    (ofText .structural ['(', 'a', ' ', '\'', 'b', ')', 'c']).read Limits.standard =
      (.ok (.list [.symbol "a", (Datum.symbol "b").quoted]),
        ofCursor ⟨.structural, 6, ['c']⟩ 7) := by
  refine ((read_ofText_iff_begins Limits.standard .structural _).1 _ _).mpr
    ⟨by decide, [.openParen, .atom "a", .quoteMark, .atom "b", .closeParen], _, ⟨?_, ?_⟩, rfl⟩
  · exact .list (.cons (.atom "a") (.single (.quotation (.atom "b"))))
  · exact .next rfl (.next rfl (.next rfl (.next rfl (.single rfl))))

end TokenStream

end SmallScheme
