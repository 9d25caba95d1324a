import SmallScheme.Proofs.Lexer.Joining
import SmallScheme.Proofs.Reader.Sequences

/-!
# Reading joined texts

The reader never looks at a token behind an expression, so a row of expressions is read alike
whatever comes behind it (`TokenStream.readAll_append`). What is read does not depend on where it
stands, but for the position of an unknown token (`TokenStream.readAll_moved`). A text that is read
to its end holds known tokens only, so it may be joined with another one behind a newline
(`Program.ofText_append`).
-/

namespace SmallScheme

namespace Reader

variable {limit length offset : Nat} {opened : List Opened} {lexemes : List Lexeme}
  {datum : Datum} {after : TokenStream}

/-- An expression that is complete is read alike whatever comes behind it. -/
theorem readFrom_append (length' : Nat) (more : List Lexeme)
    (h : readFrom limit length opened lexemes = (.ok datum, after)) :
    ∃ last : TokenStream, last.pending = after.pending ++ more ∧
      readFrom limit length' opened (lexemes ++ more) = (.ok datum, last) := by
  induction lexemes generalizing opened with
  | nil => cases h
  | cons lexeme rest ih =>
    rw [readFrom] at h
    rw [List.cons_append, readFrom]
    cases hstep : stepLexeme limit opened lexeme with
    | complete =>
      rw [hstep] at h
      cases h
      exact ⟨_, rfl, rfl⟩
    | incomplete inner =>
      rw [hstep] at h
      exact ih h
    | stopped fault =>
      rw [hstep] at h
      cases h

/-- A lexeme that is not known stops the reading. -/
theorem known_of_stepLexeme (limit : Nat) (opened : List Opened) {lexeme : Lexeme}
    (h : ∀ fault, stepLexeme limit opened lexeme ≠ .stopped fault) : lexeme.Known := by
  unfold stepLexeme at h
  rcases htoken : lexeme.token with fault | token
  · rw [htoken] at h
    exact absurd rfl (h fault)
  · rw [htoken] at h
    refine ⟨token, htoken, ?_⟩
    rintro rfl
    exact absurd rfl (h (.reported (.unknownToken lexeme.stop)))

/-- The lexemes that an expression is read from are known. -/
theorem known_of_readFrom (h : readFrom limit length opened lexemes = (.ok datum, after)) :
    ∃ taken, lexemes = taken ++ after.pending ∧ ∀ lexeme ∈ taken, lexeme.Known := by
  induction lexemes generalizing opened with
  | nil => cases h
  | cons lexeme rest ih =>
    rw [readFrom] at h
    have hknown : lexeme.Known := by
      refine known_of_stepLexeme limit opened fun fault hstep => ?_
      rw [hstep] at h
      cases h
    cases hstep : stepLexeme limit opened lexeme with
    | complete =>
      rw [hstep] at h
      cases h
      exact ⟨[lexeme], rfl, List.forall_mem_singleton.mpr hknown⟩
    | incomplete inner =>
      rw [hstep] at h
      obtain ⟨taken, rfl, hall⟩ := ih h
      exact ⟨lexeme :: taken, rfl, List.forall_mem_cons.mpr ⟨hknown, hall⟩⟩
    | stopped fault =>
      rw [hstep] at h
      cases h

/-- What reading makes of a token further on in a text. -/
def Progress.moved (offset : Nat) : Progress → Progress
  | .stopped fault => .stopped (fault.moved offset)
  | progress => progress

theorem supply_moved (datum : Datum) (opened : List Opened) :
    (supply datum opened).moved offset = supply datum opened := by
  induction opened generalizing datum with
  | nil => rfl
  | cons inner outer ih =>
    cases inner with
    | list members => rfl
    | quotation => exact ih datum.quoted

theorem deepen_moved (inner : Opened) (opened : List Opened) :
    (deepen limit inner opened).moved offset = deepen limit inner opened := by
  unfold deepen
  split <;> rfl

theorem endError_moved (opened : List Opened) :
    (Fault.reported (endError opened)).moved offset = .reported (endError opened) := by
  rcases opened with _ | ⟨_ | _, _⟩ <;> rfl

/-- Only for an unknown token it matters where it is. -/
theorem step_moved (token : Token) (position : Nat) :
    step limit opened token (position + offset) =
      (step limit opened token position).moved offset := by
  cases token with
  | openParen => exact (deepen_moved _ _).symm
  | quoteMark => exact (deepen_moved _ _).symm
  | closeParen =>
    match opened with
    | [] => rfl
    | .quotation :: _ => rfl
    | .list _ :: _ => exact (supply_moved _ _).symm
  | atom name => exact (supply_moved _ _).symm
  | literal value =>
    cases value with
    | integer value => exact (supply_moved _ _).symm
    | boolean value => exact (supply_moved _ _).symm
    | float value => rfl
    | character text => rfl
  | unknown => rfl
  | endOfInput => exact congrArg Progress.stopped (endError_moved opened).symm

theorem stepLexeme_moved (lexeme : Lexeme) :
    stepLexeme limit opened (lexeme.moved offset) =
      (stepLexeme limit opened lexeme).moved offset := by
  unfold stepLexeme Lexeme.moved
  rcases lexeme.token with fault | token
  · rfl
  · exact step_moved token lexeme.stop

/-- Further on in a text the same is read, and the fault is the same but for its position. -/
theorem readFrom_moved (length' : Nat) (lexemes : List Lexeme) :
    (readFrom limit length' opened (lexemes.map (Lexeme.moved offset))).1 =
        (readFrom limit length opened lexemes).1.mapError (Fault.moved offset) ∧
      (readFrom limit length' opened (lexemes.map (Lexeme.moved offset))).2.pending =
        (readFrom limit length opened lexemes).2.pending.map (Lexeme.moved offset) := by
  induction lexemes generalizing opened with
  | nil => exact ⟨congrArg Except.error (endError_moved opened).symm, rfl⟩
  | cons lexeme rest ih =>
    rw [List.map_cons, readFrom, readFrom, stepLexeme_moved]
    cases stepLexeme limit opened lexeme with
    | complete => exact ⟨rfl, rfl⟩
    | incomplete inner => exact ih
    | stopped fault => exact ⟨rfl, rfl⟩

end Reader

namespace TokenStream

variable {limits : Limits} {offset : Nat} {stream other more : TokenStream}

/-- Further on in a text the same expression is read, and the same lexemes are left. -/
theorem read_moved (limits : Limits)
    (h : other.pending = stream.pending.map (Lexeme.moved offset)) :
    (other.read limits).1 = (stream.read limits).1.mapError (Fault.moved offset) ∧
      (other.read limits).2.pending =
        (stream.read limits).2.pending.map (Lexeme.moved offset) := by
  unfold read
  rw [h]
  exact Reader.readFrom_moved other.length stream.pending

/-- Further on in a text the same expressions are read, and the same fault is met. -/
theorem readAll_moved (h : other.pending = stream.pending.map (Lexeme.moved offset)) :
    (other.readAll limits).1 = (stream.readAll limits).1 ∧
      (other.readAll limits).2.1 = (stream.readAll limits).2.1.map (Fault.moved offset) := by
  induction stream using readAll_induction limits generalizing other with
  | finished stream hpending =>
    rw [hpending] at h
    rw [readAll_of_nil hpending, readAll_of_nil h]
    exact ⟨rfl, rfl⟩
  | stopped stream fault after hpending hread =>
    obtain ⟨hresult, _⟩ := read_moved limits h
    rw [hread] at hresult
    have hother : other.pending ≠ [] := fun hnil => hpending (List.map_eq_nil_iff.mp (h ▸ hnil))
    rw [readAll_of_fault hpending hread, readAll_of_fault hother (Prod.ext hresult rfl)]
    exact ⟨rfl, rfl⟩
  | read stream datum after hread ih =>
    obtain ⟨hresult, hrest⟩ := read_moved limits h
    rw [hread] at hresult hrest
    obtain ⟨hdata, hfault⟩ := ih hrest
    rw [readAll_of_read hread, readAll_of_read (Prod.ext hresult rfl)]
    exact ⟨congrArg (datum :: ·) hdata, hfault⟩

/-- A stream that is read to its end may be followed by another one. -/
theorem readAll_append (hend : (stream.readAll limits).2.1 = none)
    (h : other.pending = stream.pending ++ more.pending.map (Lexeme.moved offset)) :
    (other.readAll limits).1 = (stream.readAll limits).1 ++ (more.readAll limits).1 ∧
      (other.readAll limits).2.1 = (more.readAll limits).2.1.map (Fault.moved offset) := by
  induction stream using readAll_induction limits generalizing other with
  | finished stream hpending =>
    rw [hpending, List.nil_append] at h
    rw [readAll_of_nil hpending, List.nil_append]
    exact readAll_moved h
  | stopped stream fault after hpending hread =>
    rw [readAll_of_fault hpending hread] at hend
    cases hend
  | read stream datum after hread ih =>
    rw [readAll_of_read hread] at hend ⊢
    obtain ⟨last, hpending, hother⟩ := Reader.readFrom_append other.length _ hread
    rw [← h] at hother
    obtain ⟨hdata, hfault⟩ := ih hend hpending
    rw [readAll_of_read hother]
    exact ⟨congrArg (datum :: ·) hdata, hfault⟩

/-- The lexemes of a stream that is read to its end are known. -/
theorem known_of_readAll (hend : (stream.readAll limits).2.1 = none) :
    ∀ lexeme ∈ stream.pending, lexeme.Known := by
  induction stream using readAll_induction limits with
  | finished stream hpending =>
    rw [hpending]
    exact fun lexeme hmem => absurd hmem List.not_mem_nil
  | stopped stream fault after hpending hread =>
    rw [readAll_of_fault hpending hread] at hend
    cases hend
  | read stream datum after hread ih =>
    rw [readAll_of_read hread] at hend
    obtain ⟨taken, htaken, hknown⟩ := Reader.known_of_readFrom hread
    rw [htaken]
    intro lexeme hmem
    rcases List.mem_append.mp hmem with hfirst | hrest
    · exact hknown lexeme hfirst
    · exact ih hend lexeme hrest

end TokenStream

/-- A program that is read to its end may be followed by another one on the next line. Only the
position of an unknown token shows that something stands in front. -/
theorem Program.ofText_append {limits : Limits} {text : List Char}
    (h : (Program.ofText limits text).fault = none) (more : List Char) :
    Program.ofText limits (text ++ '\n' :: more) =
      ⟨(Program.ofText limits text).expressions ++ (Program.ofText limits more).expressions,
        (Program.ofText limits more).fault.map (Fault.moved (text.length + 1))⟩ := by
  have hend : ((TokenStream.ofText .structural text).readAll limits).2.1 = none :=
    Option.map_eq_none_iff.mp h
  have hpending : (TokenStream.ofText .structural (text ++ '\n' :: more)).pending =
      (TokenStream.ofText .structural text).pending ++
        (TokenStream.ofText .structural more).pending.map (Lexeme.moved (text.length + 1)) :=
    lexemes_append_blank more (TokenStream.known_of_readAll hend) rfl
  obtain ⟨hdata, hfault⟩ := TokenStream.readAll_append hend hpending
  simp only [ofText, hdata, hfault, Option.map_map]
  congr 2
  funext fault
  rcases fault with ⟨_ | _⟩ | _ <;> rfl

end SmallScheme
