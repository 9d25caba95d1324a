import SmallScheme.Proofs.Reader.Sequences

/-!
# Reading with a greater limit

A text that is not nested too deeply for some limit is read alike with any greater one. Where the
limit stops the reading of a text, a greater one may let it go on, but the expressions read before
are the same (`Program.ofText_of_le`).
-/

namespace SmallScheme

namespace Reader

variable {limit larger length : Nat} {opened : List Opened} {lexeme : Lexeme}
  {lexemes : List Lexeme}

theorem deepen_of_le (h : limit ≤ larger) {inner : Opened}
    (hdepth : deepen limit inner opened ≠ .stopped .exhausted) :
    deepen larger inner opened = deepen limit inner opened := by
  unfold deepen at hdepth ⊢
  split at hdepth
  · next hlt => rw [if_pos hlt, if_pos (Nat.lt_of_lt_of_le hlt h)]
  · exact absurd rfl hdepth

/-- Only what opens something looks at the limit. -/
theorem step_of_le (h : limit ≤ larger) {token : Token} {position : Nat}
    (hdepth : step limit opened token position ≠ .stopped .exhausted) :
    step larger opened token position = step limit opened token position := by
  cases token with
  | openParen => exact deepen_of_le h hdepth
  | quoteMark => exact deepen_of_le h hdepth
  | literal value => cases value <;> rfl
  | _ => rfl

theorem stepLexeme_of_le (h : limit ≤ larger)
    (hdepth : stepLexeme limit opened lexeme ≠ .stopped .exhausted) :
    stepLexeme larger opened lexeme = stepLexeme limit opened lexeme := by
  unfold stepLexeme at hdepth ⊢
  split
  · next token htoken =>
    rw [htoken] at hdepth
    exact step_of_le h hdepth
  · rfl

/-- What is not nested too deeply for a limit is read alike with a greater one. -/
theorem readFrom_of_le (h : limit ≤ larger)
    (hdepth : (readFrom limit length opened lexemes).1 ≠ .error .exhausted) :
    readFrom larger length opened lexemes = readFrom limit length opened lexemes := by
  induction lexemes generalizing opened with
  | nil => rfl
  | cons lexeme rest ih =>
    rw [readFrom] at hdepth
    have hstep : stepLexeme larger opened lexeme = stepLexeme limit opened lexeme := by
      refine stepLexeme_of_le h fun hstopped => ?_
      rw [hstopped] at hdepth
      exact hdepth rfl
    rw [readFrom, readFrom, hstep]
    cases hresult : stepLexeme limit opened lexeme with
    | complete => rfl
    | incomplete inner =>
      rw [hresult] at hdepth
      exact ih hdepth
    | stopped => rfl

end Reader

variable {limits larger : Limits}

namespace TokenStream

theorem read_of_le (h : limits.calls ≤ larger.calls) {stream : TokenStream}
    (hdepth : (stream.read limits).1 ≠ .error .exhausted) :
    stream.read larger = stream.read limits :=
  Reader.readFrom_of_le (Nat.div_le_div_right h) hdepth

/-- Either nothing in a stream is nested too deeply, or reading comes to the same expressions before
it stops, and with a greater limit may come to more. -/
theorem readAll_of_le (h : limits.calls ≤ larger.calls) (stream : TokenStream) :
    stream.readAll larger = stream.readAll limits ∨
      (stream.readAll limits).2.1 = some .exhausted ∧
        (stream.readAll limits).1 <+: (stream.readAll larger).1 := by
  induction stream using readAll_induction limits with
  | finished stream hpending =>
    rw [readAll_of_nil hpending, readAll_of_nil hpending]
    exact Or.inl rfl
  | stopped stream fault after hpending hread =>
    rw [readAll_of_fault hpending hread]
    by_cases hfault : fault = .exhausted
    · exact Or.inr ⟨congrArg some hfault, List.nil_prefix⟩
    · have hdepth : (stream.read limits).1 ≠ .error .exhausted := by
        rw [hread]
        exact fun herror => hfault (Except.error.inj herror)
      exact Or.inl (readAll_of_fault hpending ((read_of_le h hdepth).trans hread))
  | read stream datum after hread ih =>
    have hdepth : (stream.read limits).1 ≠ .error .exhausted := by
      rw [hread]
      exact nofun
    rw [readAll_of_read hread, readAll_of_read ((read_of_le h hdepth).trans hread)]
    rcases ih with heq | ⟨hfault, hprefix⟩
    · rw [heq]
      exact Or.inl rfl
    · exact Or.inr ⟨hfault, List.cons_prefix_cons.mpr ⟨rfl, hprefix⟩⟩

end TokenStream

/-- With greater limits a program is the same, or it goes on where it was nested too deeply. -/
theorem Program.ofText_of_le (h : limits.calls ≤ larger.calls) (text : List Char) :
    Program.ofText larger text = Program.ofText limits text ∨
      (Program.ofText limits text).fault = some (.reported (.tooDeep .reading)) ∧
        (Program.ofText limits text).expressions <+: (Program.ofText larger text).expressions := by
  unfold ofText
  rcases TokenStream.readAll_of_le h (TokenStream.ofText .structural text) with
    heq | ⟨hfault, hprefix⟩
  · rw [heq]
    exact Or.inl rfl
  · refine Or.inr ⟨?_, hprefix⟩
    dsimp only
    rw [hfault]
    rfl

end SmallScheme
