import Mathlib.Data.Set.List
import SmallScheme.Proofs.Compiler.Agreeing
import SmallScheme.Proofs.Compiler.Resuming
import SmallScheme.Proofs.Lexer.Layout

/-!
# Compiling in either mode

The compiler may be given all tokens of a text, or its literals only. The two rows of tokens part at
the first token that is no literal, and it is refused in both of them. So there is one assembly of a
text, or an error of one class (`Compiler.start_modes`).
-/

namespace SmallScheme

/-- What the lexemes in the two modes go on with where they part: with nothing, or with a token that
is no literal in one of them, and with an unknown piece in the other. -/
inductive Parting : List Lexeme → List Lexeme → Prop
  | ends : Parting [] []
  | parts {lexeme other : Lexeme} {token : Token} (rest others : List Lexeme) :
      lexeme.token = .ok token → (∀ value, token ≠ .literal value) → token ≠ .endOfInput →
      other.token = .ok .unknown → Parting (lexeme :: rest) (other :: others)

variable {text : List Char} {mode : Mode}

/-- Without a numeral that is too long the lexemes in the two modes part behind literals. -/
theorem exists_parting (h : ¬ HasLongNumeral text) :
    ∃ common others others',
      lexemes .structural 0 text = common ++ others ∧
      lexemes .literals 0 text = common ++ others' ∧
      (∀ lexeme ∈ common, lexeme.IsLiteral) ∧ Parting others others' := by
  obtain ⟨common, others, others', hothers, hothers', hcommon, hend, hhead, hhead'⟩ :=
    lexemes_modes 0 text
  refine ⟨common, others, others', hothers, hothers', hcommon, ?_⟩
  cases others with
  | nil =>
    obtain rfl := hend.mp rfl
    exact .ends
  | cons lexeme rest =>
    obtain ⟨other, rest', rfl⟩ :=
      List.exists_cons_of_ne_nil fun hnil => List.cons_ne_nil lexeme rest (hend.mpr hnil)
    have hmem : lexeme ∈ lexemes .structural 0 text := by simp [hothers]
    have hmem' : other ∈ lexemes .literals 0 text := by simp [hothers']
    obtain ⟨token, htoken⟩ := exists_token_of_mem_lexemes h hmem
    obtain ⟨token', htoken'⟩ := exists_token_of_mem_lexemes h hmem'
    obtain rfl := unknown_of_mem_lexemes hmem' htoken' (hhead' other rfl)
    refine .parts rest rest' htoken (fun value hvalue => ?_) (fun hvalue => ?_) htoken'
    · exact hhead lexeme rfl ⟨value, hvalue ▸ htoken⟩
    · exact Cursor.token_ne_endOfInput_of_mem_lexemes hmem (hvalue ▸ htoken)

/-- If every lexeme is of some form, together they are a row of that form. -/
theorem exists_map_token_eq {α : Type} {f : α → Except Fault Token} {lexemes : List Lexeme}
    (h : ∀ lexeme ∈ lexemes, ∃ value, lexeme.token = f value) :
    ∃ values : List α, lexemes.map Lexeme.token = values.map f := by
  have hmem : lexemes.map Lexeme.token ∈ Set.range (List.map f) := by
    rw [Set.range_list_map]
    intro token htoken
    obtain ⟨lexeme, hlexeme, rfl⟩ := List.mem_map.mp htoken
    obtain ⟨value, hvalue⟩ := h lexeme hlexeme
    exact ⟨value, hvalue.symm⟩
  obtain ⟨values, hvalues⟩ := hmem
  exact ⟨values, hvalues.symm⟩

/-- The tokens of a text whose lexemes are literals up to a place. -/
theorem exists_lex_of_append (h : ¬ HasLongNumeral text) {common others : List Lexeme}
    {values : List Literal} (hlexemes : lexemes mode 0 text = common ++ others)
    (hcommon : common.map Lexeme.token = values.map fun value => .ok (.literal value)) :
    ∃ tokens : List Token, others.map Lexeme.token = tokens.map .ok ∧
      lex mode text = .ok (values.map .literal ++ (tokens ++ [.endOfInput])) := by
  obtain ⟨tokens, htokens⟩ : ∃ tokens : List Token, others.map Lexeme.token = tokens.map .ok := by
    refine exists_map_token_eq fun lexeme hmem => ?_
    exact exists_token_of_mem_lexemes h (hlexemes ▸ List.mem_append_right common hmem)
  refine ⟨tokens, htokens, lex_eq_ok_iff.mpr ⟨_, (List.append_assoc ..).symm, ?_⟩⟩
  rw [hlexemes, List.map_append, hcommon, htokens, List.map_append, List.map_map]
  rfl

/-- The tokens of a text in the two modes. They begin with the same literals, spelled at the same
places, and behind these comes the end of the text in both modes, or a token that is no literal. -/
structure PartsAt (text : List Char) (common : List Lexeme) (values : List Literal)
    (next next' : Token) : Prop where
  structural : common <+: lexemes .structural 0 text
  literals : common <+: lexemes .literals 0 text
  tokens : common.map Lexeme.token = values.map fun value => .ok (.literal value)
  lex_structural : ∃ rest, lex .structural text = .ok (values.map .literal ++ next :: rest)
  lex_literals : ∃ rest, lex .literals text = .ok (values.map .literal ++ next' :: rest)
  ne_literal : ∀ value, next ≠ .literal value
  next : next = .endOfInput ∧ next' = .endOfInput ∨ next ≠ .endOfInput ∧ next' = .unknown

theorem exists_partsAt (h : ¬ HasLongNumeral text) :
    ∃ common values next next', PartsAt text common values next next' := by
  obtain ⟨common, others, others', hothers, hothers', hcommon, hparting⟩ := exists_parting h
  obtain ⟨values, hvalues⟩ : ∃ values : List Literal,
      common.map Lexeme.token = values.map fun value => .ok (.literal value) :=
    exists_map_token_eq hcommon
  obtain ⟨tokens, htokens, hlex⟩ := exists_lex_of_append h hothers hvalues
  obtain ⟨tokens', htokens', hlex'⟩ := exists_lex_of_append h hothers' hvalues
  have hprefix : common <+: lexemes .structural 0 text := hothers ▸ List.prefix_append ..
  have hprefix' : common <+: lexemes .literals 0 text := hothers' ▸ List.prefix_append ..
  cases hparting with
  | ends =>
    obtain rfl := List.map_eq_nil_iff.mp htokens.symm
    obtain rfl := List.map_eq_nil_iff.mp htokens'.symm
    exact ⟨common, values, _, _, hprefix, hprefix', hvalues, ⟨_, hlex⟩, ⟨_, hlex'⟩, nofun,
      Or.inl ⟨rfl, rfl⟩⟩
  | parts rest others htoken hne hend hunknown =>
    obtain ⟨next, tokens, rfl, hnext, _⟩ := List.map_eq_cons_iff.mp htokens.symm
    obtain ⟨next', tokens', rfl, hnext', _⟩ := List.map_eq_cons_iff.mp htokens'.symm
    obtain rfl := Except.ok.inj (hnext.trans htoken)
    obtain rfl := Except.ok.inj (hnext'.trans hunknown)
    exact ⟨common, values, _, _, hprefix, hprefix', hvalues, ⟨_, hlex⟩, ⟨_, hlex'⟩, hne,
      Or.inr ⟨hend, rfl⟩⟩

namespace Compiler

theorem Agreeing.append {common others others' : List Lexeme} (h : Agreeing others others')
    (hcommon : ∀ lexeme ∈ common, lexeme.IsLiteral) :
    Agreeing (common ++ others) (common ++ others') := by
  induction common with
  | nil => exact h
  | cons lexeme common ih =>
    obtain ⟨⟨value, hvalue⟩, hcommon⟩ := List.forall_mem_cons.mp hcommon
    exact .literal value hvalue hvalue (ih hcommon)

theorem agreeing_modes (h : ¬ HasLongNumeral text) :
    Agreeing (lexemes .structural 0 text) (lexemes .literals 0 text) := by
  obtain ⟨common, others, others', hothers, hothers', hcommon, hparting⟩ := exists_parting h
  rw [hothers, hothers']
  refine Agreeing.append ?_ hcommon
  cases hparting with
  | ends => exact .nil
  | parts rest others htoken hne _ hunknown => exact .parted rest others htoken hunknown hne nofun

/-- Compiling ends with something that can be built, or with an error. -/
theorem start_cases (h : ¬ HasLongNumeral text) (mode : Mode) :
    (∃ assembly, (ofText mode text .empty).start.2.builder.build = .ok assembly) ∧
      ((ofText mode text .empty).start.1 = .ok () ∨
        ∃ error, (ofText mode text .empty).start.1 = .error (.reported error)) := by
  obtain ⟨taken, _, hmade, houtcome⟩ :=
    exists_outcome (made_ofText mode text) (known_of_mem_lexemes h)
  exact ⟨hmade.exists_build, houtcome.returns_or_refuses.imp_right And.left⟩

/-- The tokens of a text are the same in both modes up to the first that is no literal, and there is
such a token in both modes or in none. So compiling ends in the same way from either row of tokens:
with the same assembly, or with errors of one class. What has been made is the same in any case. -/
theorem start_modes (h : ¬ HasLongNumeral text) :
    (∃ common values next next', PartsAt text common values next next') ∧
    (ofText .literals text .empty).start.2.builder =
      (ofText .structural text .empty).start.2.builder ∧
    ((∃ assembly, (ofText .structural text .empty).start.1 = .ok () ∧
        (ofText .literals text .empty).start.1 = .ok () ∧
        (ofText .structural text .empty).start.2.builder.build = .ok assembly ∧
        (ofText .literals text .empty).start.2.builder.build = .ok assembly) ∨
      ∃ error error', (ofText .structural text .empty).start.1 = .error (.reported error) ∧
        (ofText .literals text .empty).start.1 = .error (.reported error') ∧
        error'.kind = error.kind) := by
  obtain ⟨last, hafter, houtcome⟩ := compileFrom_of_agreeing (agreeing_modes h)
    (ofText .structural text .empty) (TokenStream.ofText .literals text)
  have hbuilder : (ofText .literals text .empty).start.2.builder =
      (ofText .structural text .empty).start.2.builder := by
    have hsame := congrArg Compiler.builder hafter
    exact hsame
  obtain ⟨⟨assembly, hbuild⟩, hends⟩ := start_cases h .structural
  refine ⟨exists_partsAt h, hbuilder, ?_⟩
  rcases houtcome with hsame | ⟨_, position, position', herror, herror'⟩
  · rcases hends with hok | ⟨error, herror⟩
    · exact Or.inl ⟨assembly, hok, hsame.trans hok, hbuild, hbuilder ▸ hbuild⟩
    · exact Or.inr ⟨error, error, herror, hsame.trans herror, rfl⟩
  · exact Or.inr ⟨_, _, herror, herror', rfl⟩

/-- A quotation mark and a name behind an integer are two tokens, or one unknown piece. -/
theorem start_modes_quotation :
    let text := ['1', ' ', '\'', 'a']
    ¬ HasLongNumeral text ∧
      (ofText .structural text .empty).start.1 = .error (.reported (.unknownToken 3)) ∧
      (ofText .literals text .empty).start.2.builder =
        (ofText .structural text .empty).start.2.builder ∧
      ∃ error', (ofText .literals text .empty).start.1 = .error (.reported error') ∧
        error'.kind = .lexical := by
  intro text
  have hshort : ¬ HasLongNumeral text := not_hasLongNumeral (by decide)
  have herror : (ofText .structural text .empty).start.1 =
      .error (.reported (.unknownToken 3)) := by
    with_unfolding_all rfl
  obtain ⟨_, hbuilder, ⟨_, hok, _⟩ | ⟨error, error', hother, herror', hkind⟩⟩ := start_modes hshort
  · rw [herror] at hok
    cases hok
  · rw [herror] at hother
    cases hother
    exact ⟨hshort, herror, hbuilder, error', herror', hkind⟩

end Compiler

end SmallScheme
