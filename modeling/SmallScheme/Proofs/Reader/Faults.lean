import SmallScheme.Proofs.Evaluation.Errors
import SmallScheme.Proofs.Lexer.Numerals
import SmallScheme.Proofs.Reader.Joining

/-!
# What stops the reader

A reader stops at a token that cannot go on with what is open, which is an error of the text, at its
limit, or at a numeral that is too long. The last is no error of the text, and only a text with too
many digits in a row has one (`Program.fault_cases`).
-/

namespace SmallScheme

namespace Reader

variable {limit length : Nat} {opened : List Opened} {fault : Fault}

theorem supply_ne_stopped (datum : Datum) (opened : List Opened) :
    supply datum opened ≠ .stopped fault := by
  induction opened generalizing datum with
  | nil => exact nofun
  | cons inner outer ih =>
    cases inner with
    | list members => exact nofun
    | quotation => exact ih datum.quoted

theorem exhausted_of_deepen {inner : Opened} (h : deepen limit inner opened = .stopped fault) :
    fault = .exhausted := by
  unfold deepen at h
  split at h
  · cases h
  · exact (Progress.stopped.inj h).symm

theorem kind_endError (opened : List Opened) : (endError opened).kind = .syntactic := by
  rcases opened with _ | ⟨_ | _, _⟩ <;> rfl

/-- The class of the error that a token stops a reader with, unless no error is due to it. -/
def refusal? : Token → Option Error.Kind
  | .unknown => some .lexical
  | .literal (.float _) | .literal (.character _) => some .unsupportedLiteral
  | .closeParen | .endOfInput => some .syntactic
  | .openParen | .quoteMark | .atom _ | .literal (.integer _) | .literal (.boolean _) => none

/-- A token stops the reader by the limit, or with an error of its own class. A closing parenthesis
does so only where no list is open. -/
theorem refusal_of_step {token : Token} {position : Nat}
    (h : step limit opened token position = .stopped fault) :
    fault = .exhausted ∨ ∃ error, fault = .reported error ∧ refusal? token = some error.kind ∧
      (token = .closeParen → ∀ members outer, opened ≠ .list members :: outer) := by
  cases token with
  | openParen => exact Or.inl (exhausted_of_deepen h)
  | quoteMark => exact Or.inl (exhausted_of_deepen h)
  | closeParen =>
    rcases opened with _ | ⟨_ | _, _⟩
    · exact Or.inr ⟨_, (Progress.stopped.inj h).symm, rfl, nofun⟩
    · exact absurd h (supply_ne_stopped _ _)
    · exact Or.inr ⟨_, (Progress.stopped.inj h).symm, rfl, nofun⟩
  | atom name => exact absurd h (supply_ne_stopped _ _)
  | literal value =>
    cases value with
    | integer value => exact absurd h (supply_ne_stopped _ _)
    | boolean value => exact absurd h (supply_ne_stopped _ _)
    | float value => exact Or.inr ⟨_, (Progress.stopped.inj h).symm, rfl, nofun⟩
    | character text => exact Or.inr ⟨_, (Progress.stopped.inj h).symm, rfl, nofun⟩
  | unknown => exact Or.inr ⟨_, (Progress.stopped.inj h).symm, rfl, nofun⟩
  | endOfInput =>
    refine Or.inr ⟨_, (Progress.stopped.inj h).symm, ?_, nofun⟩
    rw [kind_endError, refusal?]

/-- An error of a token is one that programs come to. -/
theorem expected_of_refusal {token : Token} {error : Error}
    (h : refusal? token = some error.kind) : error.Expected := by
  unfold refusal? at h
  split at h <;> cases error <;> first | exact .of_described trivial rfl | cases h

theorem expected_endError (opened : List Opened) : (endError opened).Expected :=
  expected_of_refusal (kind_endError opened ▸ rfl : refusal? .endOfInput = _)

/-- A reader is stopped by its limit, by an error of the text, or by a lexeme that is no token. -/
theorem fault_of_readFrom {lexemes : List Lexeme}
    (h : (readFrom limit length opened lexemes).1 = .error fault) :
    fault = .exhausted ∨ fault.Expected ∨ ∃ lexeme ∈ lexemes, lexeme.token = .error fault := by
  induction lexemes generalizing opened with
  | nil => exact Or.inr (Or.inl ⟨_, (Except.error.inj h).symm, expected_endError opened⟩)
  | cons lexeme rest ih =>
    rw [readFrom] at h
    cases hstep : stepLexeme limit opened lexeme with
    | complete =>
      rw [hstep] at h
      cases h
    | incomplete inner =>
      rw [hstep] at h
      rcases ih h with hlimit | herror | ⟨found, hmem, hfound⟩
      · exact Or.inl hlimit
      · exact Or.inr (Or.inl herror)
      · exact Or.inr (Or.inr ⟨found, List.mem_cons_of_mem _ hmem, hfound⟩)
    | stopped other =>
      rw [hstep] at h
      cases h
      unfold stepLexeme at hstep
      split at hstep
      · rcases refusal_of_step hstep with hlimit | ⟨error, herror, hkind, _⟩
        · exact Or.inl hlimit
        · exact Or.inr (Or.inl ⟨error, herror, expected_of_refusal hkind⟩)
      · next htoken =>
        cases hstep
        exact Or.inr (Or.inr ⟨lexeme, List.mem_cons_self, htoken⟩)

end Reader

/-- The same stops the reading of all expressions. -/
theorem TokenStream.fault_of_readAll {limits : Limits} {stream : TokenStream} {fault : Fault}
    (h : (stream.readAll limits).2.1 = some fault) :
    fault = .exhausted ∨ fault.Expected ∨
      ∃ lexeme ∈ stream.pending, lexeme.token = .error fault := by
  induction stream using readAll_induction limits with
  | finished stream hpending =>
    rw [readAll_of_nil hpending] at h
    cases h
  | stopped stream other after hpending hread =>
    rw [readAll_of_fault hpending hread] at h
    cases h
    exact Reader.fault_of_readFrom (congrArg Prod.fst hread)
  | read stream datum after hread ih =>
    rw [readAll_of_read hread] at h
    obtain ⟨taken, hpending, _⟩ := Reader.known_of_readFrom hread
    -- What is pending behind an expression was pending before it.
    rcases ih h with hlimit | herror | ⟨lexeme, hmem, hlexeme⟩
    · exact Or.inl hlimit
    · exact Or.inr (Or.inl herror)
    · exact Or.inr (Or.inr ⟨lexeme, hpending ▸ List.mem_append_right taken hmem, hlexeme⟩)

/-- What keeps a text from being read to its end is an error, or a numeral that is too long. -/
theorem Program.fault_cases {limits : Limits} {text : List Char} {fault : Fault}
    (h : (Program.ofText limits text).fault = some fault) :
    fault.Expected ∨ (∃ count, fault = .numeralTooLong count) ∧ HasLongNumeral text := by
  obtain ⟨cause, hcause, rfl⟩ := Option.map_eq_some_iff.mp h
  rcases TokenStream.fault_of_readAll hcause with
    rfl | ⟨error, rfl, herror⟩ | ⟨lexeme, hmem, htoken⟩
  · exact Or.inl ⟨_, rfl, .of_described trivial rfl⟩
  · exact Or.inl ⟨error, rfl, herror⟩
  · obtain ⟨⟨count, rfl⟩, hlong⟩ := hasLongNumeral_of_mem_lexemes hmem htoken
    exact Or.inr ⟨⟨count, rfl⟩, hlong⟩

/-- What keeps a text without such a numeral from being read to its end is an error. -/
theorem Program.exists_eq_reported {limits : Limits} {text : List Char} {fault : Fault}
    (hshort : ¬ HasLongNumeral text) (h : (Program.ofText limits text).fault = some fault) :
    ∃ error, fault = .reported error := by
  rcases fault_cases h with ⟨error, rfl, _⟩ | ⟨_, hlong⟩
  · exact ⟨error, rfl⟩
  · exact absurd hlong hshort

end SmallScheme
