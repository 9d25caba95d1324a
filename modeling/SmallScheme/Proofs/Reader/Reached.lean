import SmallScheme.Proofs.Data.Readable
import SmallScheme.Proofs.Reader.Prefixes

/-!
# What reading comes to

A reader can be asked for expressions again and again, also after a fault. Wherever it stands, what
it reads next is written by tokens that are spelled somewhere in the text, so it can be written
again (`TokenStream.Reached.readable`).
-/

namespace SmallScheme

namespace Grammar

mutual

/-- Tokens that are spelled somewhere are written for data that can be written. -/
theorem Expression.readable {tokens : List Token} {datum : Datum} (h : Expression tokens datum)
    (hspelled : AllSpelled tokens) : datum.Expressible ∧ datum.Readable := by
  match h with
  | .atom name =>
    obtain ⟨_, _, hname⟩ := hspelled _ List.mem_cons_self Token.noConfusion Token.noConfusion
    cases hname with
    | atom hname _ => exact ⟨.symbol name, Datum.readable_symbol hname⟩
  | .integer value =>
    obtain ⟨_, _, hvalue⟩ := hspelled _ List.mem_cons_self Token.noConfusion Token.noConfusion
    cases hvalue with
    | integer _ _ _ hgreatest _ =>
      exact ⟨.integer _, Datum.readable_integer (Int.natCast_nonneg _) hgreatest⟩
  | .boolean value => exact ⟨.boolean value, Datum.readable_boolean value⟩
  | .quotation hinner =>
    have hrest := hspelled.of_subset (List.subset_cons_self _ _)
    obtain ⟨hexpressible, hreadable⟩ := hinner.readable hrest
    exact ⟨hexpressible.quoted, hreadable.quoted⟩
  | .list hrow =>
    have hrest := hspelled.of_subset (List.subset_cons_self _ _)
    have hitems := hrow.readable (hrest.of_subset (List.subset_append_left _ _))
    exact ⟨.list fun item hitem => (hitems item hitem).1,
      Datum.readable_list_iff.mpr fun item hitem => (hitems item hitem).2⟩

theorem Row.readable {tokens : List Token} {data : List Datum} (h : Row tokens data)
    (hspelled : AllSpelled tokens) : ∀ datum ∈ data, datum.Expressible ∧ datum.Readable := by
  match h with
  | .nil => exact fun datum hmem => absurd hmem List.not_mem_nil
  | .cons hdatum hdata =>
    have hfirst := hdatum.readable (hspelled.of_subset (List.subset_append_left _ _))
    have hothers := hdata.readable (hspelled.of_subset (List.subset_append_right _ _))
    intro datum hmem
    rcases List.mem_cons.mp hmem with rfl | hmem
    · exact hfirst
    · exact hothers datum hmem

end

end Grammar

namespace Reader

/-- Wherever reading stops, the lexemes left are those ahead of a cursor. -/
theorem exists_cursor_readFrom {limit length : Nat} {opened : List Opened} (cursor : Cursor) :
    ∃ last : Cursor, (readFrom limit length opened cursor.lexemes).2.pending = last.lexemes := by
  induction hlexemes : cursor.lexemes generalizing cursor opened with
  | nil => exact ⟨cursor, hlexemes.symm⟩
  | cons lexeme rest ih =>
    obtain ⟨_, _, hrest⟩ := Cursor.next_of_lexemes hlexemes
    rw [readFrom]
    cases stepLexeme limit opened lexeme with
    | complete datum => exact ⟨cursor.next.2, hrest.symm⟩
    | incomplete inner => exact ih cursor.next.2 hrest
    | stopped fault => exact ⟨cursor.next.2, hrest.symm⟩

end Reader

namespace TokenStream

/-- Being what is left of a text after reading expressions and looking for the end any number of
times, from wherever the reader began. -/
inductive Reached (limits : Limits) : TokenStream → Prop
  | start (cursor : Cursor) (length : Nat) : Reached limits (ofCursor cursor length)
  | read {stream : TokenStream} : Reached limits stream → Reached limits (stream.read limits).2
  | atEnd {stream : TokenStream} : Reached limits stream → Reached limits stream.atEnd.2

theorem Reached.exists_cursor {limits : Limits} {stream : TokenStream}
    (h : Reached limits stream) : ∃ cursor : Cursor, stream.pending = cursor.lexemes := by
  induction h with
  | start cursor length => exact ⟨cursor, rfl⟩
  | @read stream _ ih =>
    obtain ⟨cursor, hpending⟩ := ih
    rw [TokenStream.read, hpending]
    exact Reader.exists_cursor_readFrom cursor
  | @atEnd stream _ ih =>
    obtain ⟨cursor, hpending⟩ := ih
    unfold TokenStream.atEnd
    split
    · next hnil => exact ⟨cursor, hnil.symm.trans hpending⟩
    · next lexeme rest hcons =>
      obtain ⟨_, _, hrest⟩ := Cursor.next_of_lexemes (hpending.symm.trans hcons)
      -- A token is only looked at, but a fault is taken.
      split
      · exact ⟨cursor, hpending⟩
      · exact ⟨cursor.next.2, hrest.symm⟩

/-- Whatever is read is written by the tokens of an expression, and is not nested too deeply. -/
theorem Reached.exists_begins {limits : Limits} {stream after : TokenStream} {datum : Datum}
    (h : Reached limits stream) (hread : stream.read limits = (.ok datum, after)) :
    datum.depth ≤ limits.reading ∧
      ∃ cursor tokens last, Grammar.Begins cursor tokens datum last := by
  obtain ⟨cursor, hpending⟩ := h.exists_cursor
  rw [TokenStream.read, hpending] at hread
  change (ofCursor cursor stream.length).read limits = (.ok datum, after) at hread
  obtain ⟨hdepth, tokens, last, hbegins, _⟩ := begins_of_read hread
  exact ⟨hdepth, cursor, tokens, last, hbegins⟩

/-- Whatever is read can be written. -/
theorem Reached.readable {limits : Limits} {stream after : TokenStream} {datum : Datum}
    (h : Reached limits stream) (hread : stream.read limits = (.ok datum, after)) :
    datum.Expressible ∧ datum.Readable := by
  obtain ⟨_, cursor, tokens, last, hbegins⟩ := h.exists_begins hread
  exact hbegins.expression.readable hbegins.takes.allSpelled

end TokenStream

end SmallScheme
