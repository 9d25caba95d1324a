import SmallScheme.Host.Failure
import SmallScheme.Interpreter
import SmallScheme.Proofs.Compiler.Agreeing
import SmallScheme.Proofs.Lexer.Layout
import SmallScheme.Proofs.Reader.Sequences

/-!
# Programs in another layout

Reading looks at tokens only, and at their places only for a piece that is no token. So a program is
read, interpreted and compiled alike in every layout that does not change its fields
(`lex_eq_of_fields_eq`), and with any line ends.
-/

namespace SmallScheme

open Text (fields)

namespace Reader

variable {limit : Nat}

/-- Where a token is does not matter if it is known. -/
theorem step_of_known {token : Token} (h : token ≠ .unknown) (opened : List Opened)
    (position position' : Nat) :
    step limit opened token position = step limit opened token position' := by
  cases token with
  | literal value => cases value <;> rfl
  | unknown => exact absurd rfl h
  | _ => rfl

/-- From the same known tokens the same is read, and the same tokens are left. -/
theorem readFrom_congr {lexemes : List Lexeme} (length length' : Nat)
    (hknown : ∀ lexeme ∈ lexemes, lexeme.Known) {opened : List Opened} {others : List Lexeme}
    (h : others.map Lexeme.token = lexemes.map Lexeme.token) :
    (readFrom limit length' opened others).1 = (readFrom limit length opened lexemes).1 ∧
      (readFrom limit length' opened others).2.pending.map Lexeme.token =
        (readFrom limit length opened lexemes).2.pending.map Lexeme.token ∧
      ∀ lexeme ∈ (readFrom limit length opened lexemes).2.pending, lexeme.Known := by
  induction lexemes generalizing opened others with
  | nil =>
    obtain rfl := List.map_eq_nil_iff.mp h
    exact ⟨rfl, rfl, fun lexeme hmem => absurd hmem List.not_mem_nil⟩
  | cons lexeme rest ih =>
    obtain ⟨other, others, rfl, htoken, hrest⟩ := List.map_eq_cons_iff.mp h
    obtain ⟨hfirst, hknown⟩ := List.forall_mem_cons.mp hknown
    obtain ⟨token, hfirstToken, hne⟩ := hfirst
    have hstep : stepLexeme limit opened other = stepLexeme limit opened lexeme := by
      rw [stepLexeme, stepLexeme, htoken, hfirstToken]
      exact step_of_known hne opened other.stop lexeme.stop
    rw [readFrom, readFrom, hstep]
    cases stepLexeme limit opened lexeme with
    | complete datum => exact ⟨rfl, hrest, hknown⟩
    | incomplete inner => exact ih hknown hrest
    | stopped fault => exact ⟨rfl, hrest, hknown⟩

end Reader

namespace TokenStream

theorem read_congr {limits : Limits} {stream other : TokenStream}
    (hknown : ∀ lexeme ∈ stream.pending, lexeme.Known)
    (h : other.pending.map Lexeme.token = stream.pending.map Lexeme.token) :
    (other.read limits).1 = (stream.read limits).1 ∧
      (other.read limits).2.pending.map Lexeme.token =
        (stream.read limits).2.pending.map Lexeme.token ∧
      ∀ lexeme ∈ (stream.read limits).2.pending, lexeme.Known :=
  Reader.readFrom_congr stream.length other.length hknown h

/-- All expressions of the same known tokens are the same, and so is what stops the reading. -/
theorem readAll_congr {limits : Limits} {stream other : TokenStream}
    (hknown : ∀ lexeme ∈ stream.pending, lexeme.Known)
    (h : other.pending.map Lexeme.token = stream.pending.map Lexeme.token) :
    (other.readAll limits).1 = (stream.readAll limits).1 ∧
      (other.readAll limits).2.1 = (stream.readAll limits).2.1 := by
  induction stream using readAll_induction limits generalizing other with
  | finished stream hpending =>
    rw [hpending] at h
    rw [readAll_of_nil hpending, readAll_of_nil (List.map_eq_nil_iff.mp h)]
    exact ⟨rfl, rfl⟩
  | stopped stream fault after hpending hread =>
    obtain ⟨houtcome, _, _⟩ := read_congr hknown h
    rw [hread] at houtcome
    have hother : other.read limits = (.error fault, (other.read limits).2) :=
      Prod.ext houtcome rfl
    have hne : other.pending ≠ [] := by
      intro hnil
      rw [hnil] at h
      exact hpending (List.map_eq_nil_iff.mp h.symm)
    rw [readAll_of_fault hpending hread, readAll_of_fault hne hother]
    exact ⟨rfl, rfl⟩
  | read stream datum after hread ih =>
    obtain ⟨houtcome, hpending, hleft⟩ := read_congr hknown h
    rw [hread] at houtcome hpending hleft
    have hother : other.read limits = (.ok datum, (other.read limits).2) :=
      Prod.ext houtcome rfl
    obtain ⟨hdata, hfault⟩ := ih hleft hpending
    rw [readAll_of_read hread, readAll_of_read hother, hdata, hfault]
    exact ⟨rfl, rfl⟩

end TokenStream

namespace Compiler

/-- What matches agrees. -/
theorem agreeing_of_matching {lexemes others : List Lexeme} (h : Matching lexemes others) :
    Agreeing lexemes others := by
  induction h with
  | nil => exact .nil
  | unknown rest others hlexeme hother =>
    exact .parted rest others hlexeme hother nofun nofun
  | literal value hlexeme hother _ ih => exact .literal value hlexeme hother ih

/-- Texts that agree as far as there are literals are compiled alike as a whole. -/
theorem compile_of_matching {text other : List Char}
    (h : Matching (lexemes .literals 0 text) (lexemes .literals 0 other)) :
    compile other = compile text ∨
      ((∃ lexeme ∈ lexemes .literals 0 text, lexeme.token = .ok .unknown) ∧
        ∃ position position',
          (compile text).1 = .error (.reported (.unknownToken position)) ∧
          (compile other).1 = .error (.reported (.unknownToken position'))) := by
  obtain ⟨last, hafter, houtcome⟩ := compileFrom_of_agreeing (agreeing_of_matching h)
    (ofText .literals text .empty) (TokenStream.ofText .literals other)
  rcases hstart : (ofText .literals text .empty).start with ⟨outcome, after⟩
  rcases hother : (ofText .literals other .empty).start with ⟨outcome', after'⟩
  have hfrom : compileFrom (lexemes .literals 0 text) (ofText .literals text .empty) =
      (outcome, after) := hstart
  have hfrom' : compileFrom (lexemes .literals 0 other) { ofText .literals text .empty with
      tokens := TokenStream.ofText .literals other } = (outcome', after') := hother
  rw [hfrom, hfrom'] at hafter houtcome
  dsimp only at hafter houtcome
  subst hafter
  rcases houtcome with rfl | ⟨⟨lexeme, hmem, token, htoken, hno⟩, position, position', rfl, rfl⟩
  · left
    rw [compile, compile, hstart, hother]
    cases outcome' <;> rfl
  · right
    have hunknown : token = .unknown :=
      unknown_of_mem_lexemes hmem htoken fun ⟨value, hvalue⟩ =>
        hno value (Except.ok.inj (htoken.symm.trans hvalue))
    refine ⟨⟨lexeme, hmem, hunknown ▸ htoken⟩, position, position', ?_, ?_⟩
    · rw [compile, hstart]
    · rw [compile, hother]

end Compiler

variable {mode : Mode} {text other : List Char} {tokens : List Token}

/-- The lexemes of a text whose tokens are known. -/
theorem exists_plain_of_lex (htokens : lex mode text = .ok tokens)
    (hplain : ∀ token ∈ tokens, token.Plain) :
    ∀ lexeme ∈ lexemes mode 0 text, ∃ token, lexeme.token = .ok token ∧ token.Plain := by
  obtain ⟨front, rfl, hfront⟩ := lex_eq_ok_iff.mp htokens
  intro lexeme hmem
  have htoken := List.mem_map_of_mem (f := Lexeme.token) hmem
  rw [hfront] at htoken
  obtain ⟨token, htokenMem, htoken⟩ := List.mem_map.mp htoken
  exact ⟨token, htoken.symm, hplain token (List.mem_append_left _ htokenMem)⟩

/-- What is plain in one mode is plain when all tokens are scanned for. -/
theorem exists_plain_structural (hplain : ∀ lexeme ∈ lexemes mode 0 text,
      ∃ token, lexeme.token = .ok token ∧ token.Plain) :
    ∀ lexeme ∈ lexemes .structural 0 text, ∃ token, lexeme.token = .ok token ∧ token.Plain := by
  cases mode with
  | structural => exact hplain
  | literals =>
    have hliteral : ∀ lexeme ∈ lexemes .literals 0 text, lexeme.IsLiteral := by
      intro lexeme hmem
      obtain ⟨token, htoken, htokenPlain⟩ := hplain lexeme hmem
      exact isLiteral_of_mem_lexemes hmem ⟨token, htoken, htokenPlain.known⟩
    rw [(lexemes_eq_iff_of_isLiteral hliteral).mp rfl]
    exact hplain

/-- From texts with the same fields the same is read. -/
theorem readAll_ofText_of_fields_eq (limits : Limits)
    (hplain : ∀ lexeme ∈ lexemes .structural 0 text,
      ∃ token, lexeme.token = .ok token ∧ token.Plain) (hfields : fields text = fields other) :
    ((TokenStream.ofText .structural other).readAll limits).1 =
        ((TokenStream.ofText .structural text).readAll limits).1 ∧
      ((TokenStream.ofText .structural other).readAll limits).2.1 =
        ((TokenStream.ofText .structural text).readAll limits).2.1 := by
  refine TokenStream.readAll_congr ?_ (map_token_lexemes_of_fields_eq hplain other 0 hfields)
  intro lexeme hmem
  obtain ⟨token, htoken, htokenPlain⟩ := hplain lexeme hmem
  exact ⟨token, htoken, htokenPlain.known⟩

theorem Program.ofText_of_fields_eq (limits : Limits)
    (hplain : ∀ lexeme ∈ lexemes .structural 0 text,
      ∃ token, lexeme.token = .ok token ∧ token.Plain) (hfields : fields text = fields other) :
    Program.ofText limits other = Program.ofText limits text := by
  obtain ⟨hdata, hfault⟩ := readAll_ofText_of_fields_eq limits hplain hfields
  simp only [Program.ofText, hdata, hfault]

/-- A text with known tokens, of which no blank is a part, has the same tokens in every layout that
keeps its fields. It is read and interpreted alike, also from a file, where the line ends are made
alike first, so a file may hold the same lines with any line ends. The compiler scans for literals
only: it compiles the texts alike if their tokens are known in that mode. If they are known in the
other mode, it does so up to the first token that it does not know, and its error tells where in the
text this token is. -/
theorem lex_eq_of_fields_eq (hfields : fields text = fields other)
    (htokens : lex mode text = .ok tokens) (hplain : ∀ token ∈ tokens, token.Plain) :
    lex mode other = .ok tokens ∧
    (∀ limits,
      ((TokenStream.ofText .structural other).readAll limits).1 =
          ((TokenStream.ofText .structural text).readAll limits).1 ∧
        ((TokenStream.ofText .structural other).readAll limits).2.1 =
          ((TokenStream.ofText .structural text).readAll limits).2.1) ∧
    (∀ limits env, Interpreter.evaluateAll limits other env =
        Interpreter.evaluateAll limits text env ∧
      Interpreter.interpret limits other env = Interpreter.interpret limits text env) ∧
    (∀ content, Text.Utf8.decode content = .ok other → ∃ source,
      Host.sourceText content = .ok source ∧
      ∀ limits env, Interpreter.interpret limits source env =
        Interpreter.interpret limits text env) ∧
    (mode = .literals → Compiler.compile other = Compiler.compile text) ∧
    (Compiler.compile other = Compiler.compile text ∨ ∃ position position',
      (Compiler.compile text).1 = .error (.reported (.unknownToken position)) ∧
      (Compiler.compile other).1 = .error (.reported (.unknownToken position'))) ∧
    (∀ lines : List (List Char), ∀ ending ∈ Text.lineEnds, ∀ ending' ∈ Text.lineEnds,
      text = lines.flatMap (· ++ ending) →
      ∀ content, Text.Utf8.decode content = .ok (lines.flatMap (· ++ ending')) → ∃ source,
        Host.sourceText content = .ok source ∧
        ∀ limits env, Interpreter.interpret limits source env =
          Interpreter.interpret limits text env) := by
  have hlexemes := exists_plain_of_lex htokens hplain
  have hstructural := exists_plain_structural hlexemes
  have hinterpret : ∀ source, fields text = fields source → ∀ limits env,
      Interpreter.evaluateAll limits source env = Interpreter.evaluateAll limits text env ∧
        Interpreter.interpret limits source env = Interpreter.interpret limits text env := by
    intro source hsource limits env
    have hprogram := Program.ofText_of_fields_eq limits hstructural hsource
    have hall : Interpreter.evaluateAll limits source env =
        Interpreter.evaluateAll limits text env := by
      rw [Interpreter.evaluateAll, hprogram]
      rfl
    exact ⟨hall, by rw [Interpreter.interpret, hall]; rfl⟩
  have hfile : ∀ source, fields text = fields source → ∀ content,
      Text.Utf8.decode content = .ok source → ∃ unified, Host.sourceText content = .ok unified ∧
        ∀ limits env, Interpreter.interpret limits unified env =
          Interpreter.interpret limits text env := by
    intro source hsource content hdecode
    refine ⟨Text.unifyLineEnds source, ?_, fun limits env => ?_⟩
    · rw [Host.sourceText, hdecode]
    · exact (hinterpret _ (hsource.trans (Text.fields_unifyLineEnds source).symm) limits env).2
  have hcompile := Compiler.compile_of_matching (matching_of_fields_eq hstructural other 0 hfields)
  refine ⟨?_, fun limits => readAll_ofText_of_fields_eq limits hstructural hfields,
    hinterpret other hfields, hfile other hfields, ?_, hcompile.imp_right And.right, ?_⟩
  · obtain ⟨front, rfl, hfront⟩ := lex_eq_ok_iff.mp htokens
    refine lex_eq_ok_iff.mpr ⟨front, rfl, ?_⟩
    rw [map_token_lexemes_of_fields_eq hlexemes other 0 hfields, hfront]
  · rintro rfl
    rcases hcompile with hsame | ⟨⟨lexeme, hmem, hunknown⟩, _⟩
    · exact hsame
    · obtain ⟨token, htoken, htokenPlain⟩ := hlexemes lexeme hmem
      exact absurd (Except.ok.inj (htoken.symm.trans hunknown)) htokenPlain.known
  · rintro lines ending hending ending' hending' rfl
    refine hfile _ ?_
    rw [Text.fields_flatMap_lines lines hending, Text.fields_flatMap_lines lines hending']

/-- The same program with other line ends and a tabulator, and without the last line end. -/
theorem lex_eq_of_fields_eq_lines :
    let text := "(define n 1)\n(+ n '041)\n".toList
    let other := "(define n\t1)\r\n\r\n  (+ n\r'041)".toList
    let tokens : List Token := [.openParen, .atom "define", .atom "n", .literal (.integer 1),
      .closeParen, .openParen, .atom "+", .atom "n", .quoteMark, .literal (.integer 41),
      .closeParen, .endOfInput]
    fields text = fields other ∧ lex .structural text = .ok tokens ∧
      (∀ token ∈ tokens, token.Plain) ∧ lex .structural other = .ok tokens ∧
      ∀ limits env, Interpreter.interpret limits other env =
        Interpreter.interpret limits text env := by
  intro text other tokens
  have hfields : fields text = fields other := by with_unfolding_all rfl
  have htokens : lex .structural text = .ok tokens := by with_unfolding_all rfl
  have hplain : ∀ token ∈ tokens, token.Plain := by decide
  obtain ⟨hother, _, hinterpret, _⟩ := lex_eq_of_fields_eq hfields htokens hplain
  exact ⟨hfields, htokens, hplain, hother, fun limits env => (hinterpret limits env).2⟩

end SmallScheme
