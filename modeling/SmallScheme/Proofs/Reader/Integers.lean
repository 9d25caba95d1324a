import SmallScheme.Proofs.Lexer.Modes
import SmallScheme.Proofs.Reader.Prefixes
import SmallScheme.Proofs.Reader.Sequences

/-!
# Reading integers

An integer is read from one token, and it is the only expression of that token. So a text that is
read to its end as a row of integers is a row of their tokens, also when it is scanned for literals
only (`readsIntegers_iff`).
-/

namespace SmallScheme

/-- The tokens of integers. -/
def integerTokens (values : List Int) : List (Except Fault Token) :=
  values.map fun value => .ok (.literal (.integer value))

/-- An integer is written by its token. -/
theorem Grammar.Expression.eq_integer {tokens : List Token} {value : Int}
    (h : Expression tokens (.integer value)) : tokens = [.literal (.integer value)] := by
  cases h
  rfl

namespace TokenStream

variable {limits : Limits} {stream : TokenStream}

/-- The token of an integer is read as the integer, wherever it stands. -/
theorem read_of_integer {lexeme : Lexeme} {rest : List Lexeme} {value : Int}
    (hpending : stream.pending = lexeme :: rest)
    (htoken : lexeme.token = .ok (.literal (.integer value))) :
    stream.read limits = (.ok (.integer value), ⟨rest, lexeme.stop, stream.length⟩) := by
  rw [read, hpending, Reader.readFrom, Reader.stepLexeme, htoken]
  rfl

theorem readAll_of_integers (stream : TokenStream) {values : List Int}
    (h : stream.pending.map Lexeme.token = integerTokens values) :
    (stream.readAll limits).1 = values.map .integer ∧ (stream.readAll limits).2.1 = none := by
  induction values generalizing stream with
  | nil =>
    rw [readAll_of_nil (List.map_eq_nil_iff.mp h)]
    exact ⟨rfl, rfl⟩
  | cons value values ih =>
    obtain ⟨lexeme, rest, hpending, htoken, hrest⟩ := List.map_eq_cons_iff.mp h
    rw [readAll_of_read (read_of_integer hpending htoken)]
    obtain ⟨hdata, hfault⟩ := ih ⟨rest, lexeme.stop, stream.length⟩ hrest
    exact ⟨congrArg (.integer value :: ·) hdata, hfault⟩

/-- An integer that is read stands first among the lexemes ahead. -/
theorem lexemes_of_read_integer {cursor : Cursor} {length : Nat} {value : Int}
    {after : TokenStream}
    (h : (ofCursor cursor length).read limits = (.ok (.integer value), after)) :
    ∃ last, after = ofCursor last length ∧
      cursor.lexemes.map Lexeme.token =
        .ok (.literal (.integer value)) :: last.lexemes.map Lexeme.token := by
  obtain ⟨_, tokens, last, hbegins, hafter⟩ := begins_of_read h
  obtain rfl := hbegins.expression.eq_integer
  cases hbegins.takes with
  | next hnext hnone =>
    cases hnone
    obtain ⟨spelling, hlexemes⟩ := Cursor.lexemes_of_next hnext Token.noConfusion
    exact ⟨last, hafter, by rw [hlexemes, List.map_cons]⟩

/-- A row of integers is read, and to the end, just from the row of their tokens. -/
theorem readAll_integers_iff (cursor : Cursor) (length : Nat) {values : List Int} :
    (((ofCursor cursor length).readAll limits).1 = values.map .integer ∧
        ((ofCursor cursor length).readAll limits).2.1 = none) ↔
      cursor.lexemes.map Lexeme.token = integerTokens values := by
  refine ⟨fun h => ?_, readAll_of_integers (ofCursor cursor length)⟩
  generalize hstream : ofCursor cursor length = stream at h
  induction stream using readAll_induction limits generalizing cursor values with
  | finished stream hpending =>
    rw [readAll_of_nil hpending] at h
    obtain rfl := List.map_eq_nil_iff.mp h.1.symm
    rw [← hstream] at hpending
    exact List.map_eq_nil_iff.mpr hpending
  | stopped stream fault after hpending hread =>
    rw [readAll_of_fault hpending hread] at h
    cases h.2
  | read stream datum after hread ih =>
    rw [readAll_of_read hread] at h
    obtain ⟨hdata, hfault⟩ := h
    obtain ⟨value, others, rfl, rfl, hothers⟩ := List.map_eq_cons_iff.mp hdata.symm
    rw [← hstream] at hread
    obtain ⟨last, hafter, hlexemes⟩ := lexemes_of_read_integer hread
    rw [hlexemes, ih last hafter.symm ⟨hothers.symm, hfault⟩]
    rfl

end TokenStream

theorem isLiteral_of_integers {lexemes : List Lexeme} {values : List Int}
    (h : lexemes.map Lexeme.token = integerTokens values) :
    ∀ lexeme ∈ lexemes, lexeme.IsLiteral := by
  intro lexeme hmem
  have htoken : lexeme.token ∈ integerTokens values := h ▸ List.mem_map_of_mem hmem
  obtain ⟨value, _, hvalue⟩ := List.mem_map.mp htoken
  exact ⟨.integer value, hvalue.symm⟩

/-- A text has the tokens of integers in one mode just if it has them in the other. -/
theorem lexemes_integers_iff {position : Nat} {text : List Char} {values : List Int} :
    (lexemes .literals position text).map Lexeme.token = integerTokens values ↔
      (lexemes .structural position text).map Lexeme.token = integerTokens values := by
  constructor
  · intro h
    rwa [(lexemes_eq_iff_of_isLiteral (isLiteral_of_integers h)).mp rfl]
  · intro h
    rwa [(lexemes_eq_iff_of_isLiteral (isLiteral_of_integers h)).mpr rfl]

/-- Being read to its end as a row of integers. -/
def ReadsIntegers (limits : Limits) (text : List Char) (values : List Int) : Prop :=
  ((TokenStream.ofText .structural text).readAll limits).1 = values.map .integer ∧
    ((TokenStream.ofText .structural text).readAll limits).2.1 = none

/-- A text is read as integers just if scanning for literals finds these integers and no more. -/
theorem readsIntegers_iff {limits : Limits} {text : List Char} {values : List Int} :
    ReadsIntegers limits text values ↔
      (lexemes .literals 0 text).map Lexeme.token = integerTokens values := by
  have hread : ReadsIntegers limits text values ↔
      (lexemes .structural 0 text).map Lexeme.token = integerTokens values :=
    TokenStream.readAll_integers_iff (Cursor.ofText .structural text) text.length
  exact hread.trans lexemes_integers_iff.symm

end SmallScheme
