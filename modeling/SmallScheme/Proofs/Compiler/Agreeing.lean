import SmallScheme.Compiler

/-!
# Compiling the same literals

The compiler comes no farther than to the first token that is no literal, and refuses it whatever it
is. So rows of tokens that part there and not before are compiled alike
(`compileFrom_of_agreeing`).
-/

namespace SmallScheme.Compiler

open Assembly

/-- Having the same literals, up to the end or up to tokens that are none. -/
inductive Agreeing : List Lexeme → List Lexeme → Prop
  | nil : Agreeing [] []
  | parted {lexeme other : Lexeme} {token token' : Token} (rest others : List Lexeme) :
      lexeme.token = .ok token → other.token = .ok token' →
      (∀ value, token ≠ .literal value) → (∀ value, token' ≠ .literal value) →
      Agreeing (lexeme :: rest) (other :: others)
  | literal {lexeme other : Lexeme} {rest others : List Lexeme} (value : Literal) :
      lexeme.token = .ok (.literal value) → other.token = .ok (.literal value) →
      Agreeing rest others → Agreeing (lexeme :: rest) (other :: others)

/-- A token that is no literal is refused, and nothing is made of it. -/
theorem compileFrom_of_ne_literal {lexeme : Lexeme} {token : Token}
    (htoken : lexeme.token = .ok token) (h : ∀ value, token ≠ .literal value)
    (rest : List Lexeme) (compiler : Compiler) :
    compileFrom (lexeme :: rest) compiler =
      (.error (.reported (.unknownToken lexeme.stop)),
        { compiler with
          tokens := { compiler.tokens with pending := rest, position := lexeme.stop } }) := by
  rw [compileFrom, htoken]
  cases token with
  | literal value => exact absurd rfl (h value)
  | _ => rfl

/-- What is made of an integer does not depend on the tokens that are left. -/
theorem emitInteger_tokens (value : Int) (compiler : Compiler) (tokens : TokenStream) :
    emitInteger value { compiler with tokens } =
      ((emitInteger value compiler).1, { (emitInteger value compiler).2 with tokens }) := by
  simp only [emitInteger, openFunction, Builder.move, note]
  cases (Move.immediateToRegister value .result).text <;> rfl

/-- Rows that agree are compiled alike. Only the error of a token that is no literal tells where
that token is. -/
theorem compileFrom_of_agreeing {lexemes others : List Lexeme} (h : Agreeing lexemes others)
    (compiler : Compiler) (tokens : TokenStream) :
    ∃ last, (compileFrom others { compiler with tokens }).2 =
        { (compileFrom lexemes compiler).2 with tokens := last } ∧
      ((compileFrom others { compiler with tokens }).1 = (compileFrom lexemes compiler).1 ∨
        ((∃ lexeme ∈ lexemes, ∃ token, lexeme.token = .ok token ∧
            ∀ value, token ≠ .literal value) ∧ ∃ position position',
          (compileFrom lexemes compiler).1 = .error (.reported (.unknownToken position)) ∧
          (compileFrom others { compiler with tokens }).1 =
            .error (.reported (.unknownToken position')))) := by
  induction h generalizing compiler tokens with
  | nil => exact ⟨_, rfl, Or.inl rfl⟩
  | @parted lexeme other token _ rest others hlexeme hother hne hne' =>
    rw [compileFrom_of_ne_literal hlexeme hne, compileFrom_of_ne_literal hother hne']
    exact ⟨_, rfl, Or.inr ⟨⟨lexeme, List.mem_cons_self, token, hlexeme, hne⟩, _, _, rfl, rfl⟩⟩
  | @literal lexeme other rest others value hlexeme hother _ ih =>
    rw [compileFrom, compileFrom, hlexeme, hother]
    cases value with
    | integer value =>
      dsimp only
      rw [emitInteger_tokens value compiler
          { tokens with pending := others, position := other.stop },
        emitInteger_tokens value compiler
          { compiler.tokens with pending := rest, position := lexeme.stop }]
      rcases emitInteger value compiler with ⟨fault | ⟨⟩, made⟩
      · exact ⟨_, rfl, Or.inl rfl⟩
      · obtain ⟨last, hafter, houtcome⟩ := ih { made with
            tokens := { compiler.tokens with pending := rest, position := lexeme.stop } }
          { tokens with pending := others, position := other.stop }
        refine ⟨last, hafter, houtcome.imp_right ?_⟩
        rintro ⟨⟨found, hmem, hfound⟩, hpositions⟩
        exact ⟨⟨found, List.mem_cons_of_mem _ hmem, hfound⟩, hpositions⟩
    | _ => exact ⟨_, rfl, Or.inl rfl⟩

end SmallScheme.Compiler
