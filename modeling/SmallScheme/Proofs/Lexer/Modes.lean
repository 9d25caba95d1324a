import SmallScheme.Proofs.Lexer.Taking

/-!
# Literals in both modes

Scanning for literals only is scanning for all tokens, up to the first token that is no literal.
There the two part, but neither of them goes on with a literal (`lexemes_modes`). So a text consists
of literals in both modes or in none, and then of the same ones (`lexemes_eq_iff_of_isLiteral`).
-/

namespace SmallScheme

/-- Being a literal. -/
def Lexeme.IsLiteral (lexeme : Lexeme) : Prop :=
  ∃ value, lexeme.token = .ok (.literal value)

variable {first : Char} {rest : List Char}

/-- A literal begins with a digit or a number sign, and these begin the same token in both modes. -/
theorem scan_literals (h : first.isDigit ∨ first = '#') :
    scan .literals first rest = scan .structural first rest := by
  rcases h with hdigit | rfl
  · rw [scan.eq_def, scan.eq_def, if_pos hdigit, if_pos hdigit]
  · rfl

/-- Nothing else begins a literal. -/
theorem scan_token_ne_literal (mode : Mode) (h : ¬ (first.isDigit ∨ first = '#'))
    (value : Literal) : (scan mode first rest).token ≠ .ok (.literal value) := by
  obtain ⟨hdigit, hhash⟩ := not_or.mp h
  intro hvalue
  cases mode with
  | literals =>
    rw [scan, if_neg hdigit, if_neg hhash] at hvalue
    cases hvalue
  | structural =>
    rw [scan, if_neg hdigit, if_neg hhash] at hvalue
    repeat' split at hvalue
    all_goals cases hvalue

/-- A literal in one mode is the same in the other. -/
theorem scan_eq_of_literal {mode : Mode} {value : Literal}
    (h : (scan mode first rest).token = .ok (.literal value)) :
    scan .literals first rest = scan .structural first rest := by
  by_cases hfirst : first.isDigit ∨ first = '#'
  · exact scan_literals hfirst
  · exact absurd h (scan_token_ne_literal mode hfirst value)

/-- What begins no literal is an unknown piece when literals are all that is scanned for. -/
theorem scan_literals_unknown (h : ¬ (first.isDigit ∨ first = '#')) :
    (scan .literals first rest).token = .ok .unknown := by
  obtain ⟨hdigit, hhash⟩ := not_or.mp h
  rw [scan, if_neg hdigit, if_neg hhash]
  rfl

/-- Where a token is known, scanning is the same in both modes, whatever follows the first
character. -/
theorem scan_structural_of_known {mode : Mode} {token : Token}
    (htoken : (scan mode first rest).token = .ok token) (hknown : token ≠ .unknown) :
    ∀ other, scan mode first other = scan .structural first other := by
  intro other
  cases mode with
  | structural => rfl
  | literals =>
    by_cases hfirst : first.isDigit ∨ first = '#'
    · exact scan_literals hfirst
    · rw [scan_literals_unknown hfirst] at htoken
      exact absurd (Except.ok.inj htoken).symm hknown

/-- The lexemes of a text are the same in both modes up to the first that is no literal, and there
is such a one in both modes or in none. -/
theorem lexemes_modes (position : Nat) (text : List Char) :
    ∃ common others others',
      lexemes .structural position text = common ++ others ∧
      lexemes .literals position text = common ++ others' ∧
      (∀ lexeme ∈ common, lexeme.IsLiteral) ∧
      (others = [] ↔ others' = []) ∧
      (∀ lexeme ∈ others.head?, ¬ lexeme.IsLiteral) ∧
      (∀ lexeme ∈ others'.head?, ¬ lexeme.IsLiteral) := by
  induction position, text using lexemes.induct .structural with
  | case1 position text htext =>
    refine ⟨[], [], [], lexemes_of_blank htext, lexemes_of_blank htext, ?_⟩
    simp
  | case2 position text first rest htext result stop _ ih =>
    by_cases hliteral : ∃ value, result.token = .ok (.literal value)
    · obtain ⟨value, hvalue⟩ := hliteral
      have hsame : scan .literals first rest = result := scan_eq_of_literal hvalue
      obtain ⟨common, others, others', hothers, hothers', hcommon, hrest⟩ := ih
      refine ⟨⟨result.token, result.spelling, stop⟩ :: common, others, others', ?_, ?_, ?_, hrest⟩
      · rw [lexemes_of_cons htext, List.cons_append, ← hothers]
      · rw [lexemes_of_cons htext, hsame, List.cons_append, ← hothers']
      · rintro lexeme (_ | ⟨_, hmem⟩)
        · exact ⟨value, hvalue⟩
        · exact hcommon lexeme hmem
    · refine ⟨[], _, _, lexemes_of_cons htext, lexemes_of_cons htext, ?_, ?_, ?_, ?_⟩
      · exact fun lexeme hmem => absurd hmem List.not_mem_nil
      · exact iff_of_false (List.cons_ne_nil _ _) (List.cons_ne_nil _ _)
      · rintro _ ⟨⟩
        exact hliteral
      · -- Were this a literal, the scans would be the same.
        rintro _ ⟨⟩ ⟨value, hvalue⟩
        have hsame := scan_eq_of_literal hvalue
        exact hliteral ⟨value, (congrArg Scan.token hsame).symm.trans hvalue⟩

/-- What goes on with no literal does not go on if all are literals. -/
theorem eq_nil_of_isLiteral {common others : List Lexeme}
    (h : ∀ lexeme ∈ common ++ others, lexeme.IsLiteral)
    (hothers : ∀ lexeme ∈ others.head?, ¬ lexeme.IsLiteral) : others = [] := by
  cases others with
  | nil => rfl
  | cons lexeme rest => exact absurd (h lexeme (by simp)) (hothers lexeme rfl)

/-- A text consists of certain literals in one mode just if it does in the other. -/
theorem lexemes_eq_iff_of_isLiteral {position : Nat} {text : List Char} {literals : List Lexeme}
    (h : ∀ lexeme ∈ literals, lexeme.IsLiteral) :
    lexemes .literals position text = literals ↔
      lexemes .structural position text = literals := by
  obtain ⟨common, others, others', hothers, hothers', _, hend, hhead, hhead'⟩ :=
    lexemes_modes position text
  rw [hothers, hothers']
  constructor
  · rintro rfl
    obtain rfl := eq_nil_of_isLiteral h hhead'
    rw [hend.mpr rfl]
  · rintro rfl
    obtain rfl := eq_nil_of_isLiteral h hhead
    rw [hend.mp rfl]

end SmallScheme
