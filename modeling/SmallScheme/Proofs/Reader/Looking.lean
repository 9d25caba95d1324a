import SmallScheme.Proofs.Lexer.Numerals
import SmallScheme.Proofs.Reader.Calls

/-!
# Looking for the end

Looking for the end of a text takes nothing. Whoever looks in between gets the same expressions and
the same faults as someone who does not, also behind a fault (`Stands.answers_filter`). Reading all
expressions at once is to look, and to read one if there is a token, again and again
(`readsInTurn_readAll`).
-/

namespace SmallScheme

namespace TokenStream

variable {limits : Limits} {mode : Mode} {text : List Char} {cursor : Cursor}
  {stream other after last : TokenStream} {datum : Datum} {data : List Datum}
  {fault : Option Fault}

/-- Only at the end of a text is nothing pending. -/
theorem atEnd_eq_ok_true_iff (stream : TokenStream) :
    stream.atEnd.1 = .ok true ↔ stream.pending = [] := by
  rw [atEnd]
  cases hpending : stream.pending with
  | nil => simp
  | cons lexeme rest =>
    rcases lexeme with ⟨_ | _, _, _⟩
    · simp
    · simp

/-- Reading some expressions one by one. The end is found behind the last of them and not before,
and what stops the reading there is found by reading once more. -/
structure ReadsInTurn (limits : Limits) (stream : TokenStream) (data : List Datum)
    (fault : Option Fault) (last : TokenStream) : Prop where
  answers : stream.answers limits (List.replicate data.length .read) =
    data.map fun datum => .read (.ok datum)
  atEnd : ∀ count ≤ data.length,
    ((stream.behind limits (List.replicate count .read)).atEnd.1 = .ok true ↔
      count = data.length ∧ fault = none)
  finished : fault = none →
    last = (stream.behind limits (List.replicate data.length .read)).atEnd.2
  stopped : ∀ cause, fault = some cause →
    (stream.behind limits (List.replicate data.length .read)).read limits = (.error cause, last)

/-- One more expression is read in front of others. -/
theorem ReadsInTurn.cons (hread : stream.read limits = (.ok datum, after))
    (h : ReadsInTurn limits after data fault last) :
    ReadsInTurn limits stream (datum :: data) fault last := by
  have hask : stream.ask limits .read = (.read (.ok datum), after) := by rw [ask, hread]
  have hbehind (count : Nat) : stream.behind limits (List.replicate (count + 1) .read) =
      after.behind limits (List.replicate count .read) := by
    rw [List.replicate_succ, behind, List.foldl_cons, hask, behind]
  constructor
  · rw [List.length_cons, List.replicate_succ, TokenStream.answers, hask, List.map_cons, h.answers]
  · intro count hcount
    cases count with
    | zero =>
      refine iff_of_false (fun hend => ?_) fun hzero => Nat.succ_ne_zero _ hzero.1.symm
      have hnil : stream.pending = [] := (atEnd_eq_ok_true_iff stream).mp hend
      rw [TokenStream.read, hnil] at hread
      cases hread
    | succ count =>
      rw [hbehind, h.atEnd count (Nat.le_of_succ_le_succ hcount), List.length_cons,
        Nat.add_right_cancel_iff]
  · rw [List.length_cons, hbehind]
    exact h.finished
  · rw [List.length_cons, hbehind]
    exact h.stopped

/-- All expressions are read at once as they are read one by one. -/
theorem readsInTurn_readAll (limits : Limits) (stream : TokenStream) :
    ReadsInTurn limits stream (stream.readAll limits).1 (stream.readAll limits).2.1
      (stream.readAll limits).2.2 := by
  induction stream using readAll_induction limits with
  | finished stream hpending =>
    rw [readAll_of_nil hpending]
    refine ⟨rfl, fun count hcount => ?_, fun _ => ?_, fun cause hcause => ?_⟩
    · obtain rfl := Nat.le_zero.mp hcount
      exact iff_of_true ((atEnd_eq_ok_true_iff stream).mpr hpending) ⟨rfl, rfl⟩
    · change stream.finished = stream.atEnd.2
      rw [atEnd, hpending]
    · cases hcause
  | stopped stream cause after hpending hread =>
    rw [readAll_of_fault hpending hread]
    refine ⟨rfl, fun count hcount => ?_, fun hnone => ?_, fun other hother => ?_⟩
    · obtain rfl := Nat.le_zero.mp hcount
      refine iff_of_false (fun hend => ?_) fun hnone => Option.some_ne_none cause hnone.2
      exact hpending ((atEnd_eq_ok_true_iff stream).mp hend)
    · cases hnone
    · cases hother
      exact hread
  | read stream datum after hread ih =>
    rw [readAll_of_read hread]
    exact ih.cons hread

/-- An answer is of the sort of its call. -/
theorem takes_ask (limits : Limits) (stream : TokenStream) (call : Call) :
    (stream.ask limits call).1.takes = call.takes := by
  cases call <;> rfl

namespace Stands

theorem readAll_eq (h : Stands mode text cursor stream) (hother : Stands mode text cursor other) :
    stream.readAll limits = other.readAll limits := by
  have hpending : stream.pending = other.pending := h.pending.trans hother.pending.symm
  have hread : stream.read limits = other.read limits := h.read_eq.trans hother.read_eq.symm
  by_cases hnil : stream.pending = []
  · rw [readAll_of_nil hnil, readAll_of_nil (hpending ▸ hnil), finished, finished, h.length,
      hother.length]
  · rcases hfirst : stream.read limits with ⟨fault | datum, after⟩
    · have hsame := hread.symm.trans hfirst
      rw [readAll_of_fault hnil hfirst, readAll_of_fault (hpending ▸ hnil) hsame]
    · have hsame := hread.symm.trans hfirst
      rw [readAll_of_read hfirst, readAll_of_read hsame]

/-- A call that takes tokens does not depend on whether the next one has been looked at. -/
theorem ask_eq (h : Stands mode text cursor stream) (hother : Stands mode text cursor other)
    {call : Call} (htakes : call.takes = true) :
    stream.ask limits call = other.ask limits call := by
  cases call with
  | read => rw [ask, ask, h.read_eq, hother.read_eq]
  | atEnd => cases htakes
  | readAll => rw [ask, ask, h.readAll_eq hother]

/-- Without a numeral that is too long there is a token wherever a stream stands. -/
theorem exists_token (h : Stands mode text cursor stream) (hshort : ¬ HasLongNumeral text) :
    ∃ token, cursor.next.1 = .ok token := by
  cases hnext : cursor.next.1 with
  | ok token => exact ⟨token, rfl⟩
  | error fault =>
    obtain ⟨piece, htext, _⟩ := h.within.tiles
    have hlong : HasLongNumeral cursor.ahead := (Cursor.tooLong_of_next hnext).2
    exact absurd (hlong.of_infix (htext ▸ (List.suffix_append piece _).isInfix)) hshort

/-- Streams that stand at one place answer the calls that take tokens alike, whoever looks in
between, and stand at one place again. -/
theorem answers_filter (h : Stands mode text cursor stream)
    (hother : Stands mode text cursor other) (hshort : ¬ HasLongNumeral text)
    (calls : List Call) :
    (stream.answers limits calls).filter Answer.takes =
        other.answers limits (calls.filter Call.takes) ∧
      ∃ place, Stands mode text place (stream.behind limits calls) ∧
        Stands mode text place (other.behind limits (calls.filter Call.takes)) := by
  induction calls generalizing cursor stream other with
  | nil => exact ⟨rfl, cursor, h, hother⟩
  | cons call calls ih =>
    rw [answers, behind, List.foldl_cons]
    cases htakes : call.takes with
    | false =>
      -- Only looking takes nothing, and then a stream stands where it stood.
      cases call with
      | atEnd =>
        obtain ⟨token, hnext⟩ := h.exists_token hshort
        rw [List.filter_cons_of_neg Bool.false_ne_true,
          List.filter_cons_of_neg Bool.false_ne_true]
        exact ih (h.atEnd_of_next hnext).2 hother
      | read => cases htakes
      | readAll => cases htakes
    | true =>
      obtain ⟨place, hplace⟩ := h.exists_ask limits call
      have heq : stream.ask limits call = other.ask limits call := h.ask_eq hother htakes
      rw [List.filter_cons_of_pos ((takes_ask limits stream call).trans htakes),
        List.filter_cons_of_pos htakes, answers, behind, List.foldl_cons, ← heq]
      obtain ⟨hanswers, hbehind⟩ := ih hplace hplace
      exact ⟨congrArg _ hanswers, hbehind⟩

end Stands

/-- Whatever a stream is asked for, the calls that take tokens are answered as if nobody had looked
for the end, and what is still to be taken is the same. The end is found just if its token is the
next one. All expressions are read as if they were read one by one up to the end, or to the same
fault. -/
theorem answers_filter_takes (limits : Limits) (mode : Mode) {text : List Char}
    (hshort : ¬ HasLongNumeral text) (calls : List Call) :
    ((ofText mode text).answers limits calls).filter Answer.takes =
        (ofText mode text).answers limits (calls.filter Call.takes) ∧
      (∃ cursor token, Stands mode text cursor ((ofText mode text).behind limits calls) ∧
        Stands mode text cursor ((ofText mode text).behind limits (calls.filter Call.takes)) ∧
        cursor.next.1 = .ok token ∧
        ((ofText mode text).behind limits calls).atEnd.1 =
          .ok (decide (token = .endOfInput))) ∧
      ∃ data fault last,
        ((ofText mode text).behind limits calls).readAll limits = (data, fault, last) ∧
          ReadsInTurn limits ((ofText mode text).behind limits calls) data fault last := by
  have hstart : Stands mode text (Cursor.ofText mode text) (ofText mode text) :=
    stands_ofCursor (Cursor.within_ofText mode text)
  obtain ⟨hanswers, cursor, hstream, hother⟩ := hstart.answers_filter hstart hshort calls
  obtain ⟨token, htoken⟩ := hstream.exists_token hshort
  exact ⟨hanswers, ⟨cursor, token, hstream, hother, htoken, (hstream.atEnd_of_next htoken).1⟩,
    _, _, _, rfl, readsInTurn_readAll limits _⟩

/-- Looking at a parenthesis behind a quotation, and at what is behind it. -/
theorem answers_filter_takes_stray :
    let text := ['\'', 'a', ')', '#']
    let calls := [.atEnd, .read, .atEnd, .read, .atEnd, .readAll]
    ¬ HasLongNumeral text ∧
      ((ofText .structural text).answers Limits.standard calls).filter Answer.takes =
        [.read (.ok (Datum.symbol "a").quoted), .read (.error (.reported .unexpectedClose)),
          .readAll [] (some (.reported (.unknownToken 4)))] := by
  intro text calls
  have hshort : ¬ HasLongNumeral text := not_hasLongNumeral (by decide)
  obtain ⟨hanswers, _⟩ := answers_filter_takes Limits.standard .structural hshort calls
  refine ⟨hshort, hanswers.trans ?_⟩
  with_unfolding_all rfl

end TokenStream

end SmallScheme
