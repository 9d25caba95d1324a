import SmallScheme.Proofs.Lexer.Joining
import SmallScheme.Proofs.Lexer.Modes
import SmallScheme.Text.Line

/-!
# Layout

Blanks part a text into its fields. How many blanks there are between two fields does not matter,
nor which: texts with the same fields have the same tokens (`map_token_lexemes_of_fields_eq`).
Pieces that are no token are an exception, and so are characters, since a blank may be a part of
these.
-/

namespace SmallScheme

namespace Text

/-- Whether a character is no blank. -/
def isInk (c : Char) : Bool :=
  !isBlank c

/-- The pieces of a text between its blanks. -/
def fields (text : List Char) : List (List Char) :=
  (text.splitOnP isBlank).filter (· ≠ [])

variable {text piece rest other : List Char} {c : Char}

theorem isInk_eq_true_iff : isInk c ↔ isBlank c = false := by
  simp [isInk]

theorem isInk_eq_false_iff : isInk c = false ↔ isBlank c := by
  simp [isInk]

/-- At a blank a text is parted into its fields. -/
theorem fields_append_cons (h : isBlank c) (text more : List Char) :
    fields (text ++ c :: more) = fields text ++ fields more := by
  rw [fields, List.splitOnP_append_cons text more h, List.filter_append]
  rfl

theorem fields_cons_of_isBlank (h : isBlank c) (text : List Char) :
    fields (c :: text) = fields text := by
  have hnil : fields [] = [] := by simp [fields]
  have hparted := fields_append_cons h [] text
  rwa [hnil, List.nil_append, List.nil_append] at hparted

/-- A text without blanks is one field, unless it is empty. -/
theorem fields_of_isInk (h : ∀ c ∈ piece, isInk c) : fields piece = [piece].filter (· ≠ []) := by
  rw [fields, List.splitOnP_eq_singleton fun c hc => isInk_eq_true_iff.mp (h c hc)]

theorem fields_dropWhile_isBlank (text : List Char) :
    fields (text.dropWhile isBlank) = fields text := by
  induction text with
  | nil => rfl
  | cons c text ih =>
    by_cases hblank : isBlank c
    · rw [List.dropWhile_cons_of_pos hblank, fields_cons_of_isBlank hblank, ih]
    · rw [List.dropWhile_cons_of_neg hblank]

/-- What a text begins with, up to the first blank, is its first field, unless it is empty. -/
theorem fields_eq (text : List Char) :
    fields text = [text.takeWhile isInk].filter (· ≠ []) ++ fields (text.dropWhile isInk) := by
  have hwhole := List.takeWhile_append_dropWhile (p := isInk) (l := text)
  have hfront : fields (text.takeWhile isInk) = [text.takeWhile isInk].filter (· ≠ []) :=
    fields_of_isInk fun c hc => List.mem_takeWhile_imp hc
  cases hrest : text.dropWhile isInk with
  | nil =>
    rw [hrest, List.append_nil] at hwhole
    rw [← hfront, hwhole]
    simp [fields]
  | cons c rest =>
    have hstop := List.head?_dropWhile_not isInk text
    rw [hrest] at hstop hwhole
    have hblank : isBlank c := isInk_eq_false_iff.mp (by simpa using hstop)
    rw [← hfront, fields_cons_of_isBlank hblank, ← fields_append_cons hblank, hwhole]

theorem fields_eq_cons (h : text.takeWhile isInk ≠ []) :
    fields text = text.takeWhile isInk :: fields (text.dropWhile isInk) := by
  rw [fields_eq, List.filter_cons, if_pos (decide_eq_true h)]
  rfl

/-- Another text with the same fields begins with the same piece, goes on alike up to the next
blank, and has the same fields behind the piece. -/
theorem exists_append_of_fields_eq (hne : piece ≠ []) (hpiece : ∀ c ∈ piece, isInk c)
    (hother : ∀ c ∈ other.head?, isInk c) (h : fields (piece ++ rest) = fields other) :
    ∃ back, other = piece ++ back ∧ rest.takeWhile isInk = back.takeWhile isInk ∧
      fields rest = fields back := by
  have hfirst : (piece ++ rest).takeWhile isInk ≠ [] := by
    rw [List.takeWhile_append_of_pos hpiece]
    exact List.append_ne_nil_of_left_ne_nil hne _
  rw [fields_eq_cons hfirst] at h
  have hother' : other.takeWhile isInk ≠ [] := by
    cases other with
    | nil => simp [fields] at h
    | cons c other =>
      rw [List.takeWhile_cons_of_pos (hother c rfl)]
      exact List.cons_ne_nil _ _
  rw [fields_eq_cons hother', List.takeWhile_append_of_pos hpiece,
    List.dropWhile_append_of_pos hpiece] at h
  obtain ⟨hfront, hrest⟩ := List.cons.inj h
  have hink : ∀ c ∈ rest.takeWhile isInk, isInk c := fun c hc => List.mem_takeWhile_imp hc
  have hstop : ∀ c ∈ (other.dropWhile isInk).head?, isInk c = false := by
    intro c hc
    have hnot := List.head?_dropWhile_not isInk other
    rw [Option.mem_def.mp hc] at hnot
    simpa using hnot
  obtain ⟨htake, hdrop⟩ := Scan.takeWhile_append_of_stop hink hstop
  refine ⟨rest.takeWhile isInk ++ other.dropWhile isInk, ?_, htake.symm, ?_⟩
  · rw [← List.append_assoc, hfront, List.takeWhile_append_dropWhile]
  · rw [fields_eq rest, fields_eq (_ ++ _), htake, hdrop]
    exact congrArg _ hrest

/-- The ways in which a line may end: a line feed, a carriage return, or both. -/
def lineEnds : List (List Char) :=
  [['\n'], ['\r'], ['\r', '\n']]

/-- The fields of a text are those of its lines, however these end. -/
theorem fields_flatMap_lines (lines : List (List Char)) {ending : List Char}
    (h : ending ∈ lineEnds) : fields (lines.flatMap (· ++ ending)) = lines.flatMap fields := by
  have hline : ∀ line more, fields (line ++ ending ++ more) = fields line ++ fields more := by
    intro line more
    have hfeed : isBlank '\n' := rfl
    have hreturn : isBlank '\r' := rfl
    simp only [lineEnds, List.mem_cons, List.not_mem_nil, or_false] at h
    rcases h with rfl | rfl | rfl
    · rw [List.append_assoc]
      exact fields_append_cons hfeed line more
    · rw [List.append_assoc]
      exact fields_append_cons hreturn line more
    · rw [List.append_assoc, ← fields_cons_of_isBlank hfeed more]
      exact fields_append_cons hreturn line _
  induction lines with
  | nil => simp [fields]
  | cons line lines ih => rw [List.flatMap_cons, hline, ih, List.flatMap_cons]

/-- Making all line ends alike changes no field. -/
theorem fields_unifyLineEnds (text : List Char) : fields (unifyLineEnds text) = fields text := by
  have hfeed : ∀ text, fields ('\n' :: text) = fields text := fields_cons_of_isBlank rfl
  have hreturn : ∀ text, fields ('\r' :: text) = fields text := fields_cons_of_isBlank rfl
  have hparts : ∀ {text other : List Char}, text.takeWhile isInk = other.takeWhile isInk ∧
      fields (text.dropWhile isInk) = fields (other.dropWhile isInk) →
      fields text = fields other := by
    rintro text other ⟨htake, hdrop⟩
    rw [fields_eq, fields_eq other, htake, hdrop]
  -- A field may begin in the middle of the text, so its parts are compared on both sides of the
  -- first blank.
  suffices h : (unifyLineEnds text).takeWhile isInk = text.takeWhile isInk ∧
      fields ((unifyLineEnds text).dropWhile isInk) = fields (text.dropWhile isInk) from hparts h
  fun_induction unifyLineEnds text with
  | case1 rest ih =>
    refine ⟨rfl, ?_⟩
    change fields ('\n' :: unifyLineEnds rest) = fields ('\r' :: '\n' :: rest)
    rw [hfeed, hreturn, hfeed, hparts ih]
  | case2 rest _ ih =>
    refine ⟨rfl, ?_⟩
    change fields ('\n' :: unifyLineEnds rest) = fields ('\r' :: rest)
    rw [hfeed, hreturn, hparts ih]
  | case3 c rest _ hc ih =>
    cases hink : isInk c with
    | true =>
      rw [List.takeWhile_cons_of_pos hink, List.takeWhile_cons_of_pos hink,
        List.dropWhile_cons_of_pos hink, List.dropWhile_cons_of_pos hink, ih.1]
      exact ⟨rfl, ih.2⟩
    | false =>
      have hnot := Bool.eq_false_iff.mp hink
      have hblank := isInk_eq_false_iff.mp hink
      rw [List.takeWhile_cons_of_neg hnot, List.takeWhile_cons_of_neg hnot,
        List.dropWhile_cons_of_neg hnot, List.dropWhile_cons_of_neg hnot,
        fields_cons_of_isBlank hblank, fields_cons_of_isBlank hblank]
      exact ⟨rfl, hparts ih⟩
  | case4 => exact ⟨rfl, rfl⟩

end Text

open Text (isBlank isInk fields)

/-- Whether a literal may end depends on what there is up to the next blank. -/
theorem Scan.endsHere_congr {rest other : List Char}
    (h : rest.takeWhile isInk = other.takeWhile isInk) :
    endsHere rest = endsHere other := by
  have hfirst : ∀ text, endsHere text = (text.takeWhile isInk).head?.all (· == ')') := by
    intro text
    cases text with
    | nil => rfl
    | cons c text => cases hblank : isBlank c <;> simp [endsHere, isInk, hblank]
  rw [hfirst, hfirst, h]

/-- Being a token that no blank is a part of. -/
structure Token.Plain (token : Token) : Prop where
  known : token ≠ .unknown
  ne_character : ∀ text, token ≠ .literal (.character text)

instance (token : Token) : Decidable token.Plain :=
  match token with
  | .unknown => isFalse fun h => h.known rfl
  | .literal (.character text) => isFalse fun h => h.ne_character text rfl
  | .openParen | .closeParen | .quoteMark | .atom _ | .endOfInput | .literal (.integer _)
  | .literal (.float _) | .literal (.boolean _) =>
    isTrue ⟨Token.noConfusion, fun _ h => nomatch h⟩

theorem Spelled.isInk {spelling rest : List Char} {token : Token}
    (h : Spelled spelling token rest) (hplain : token.Plain) : ∀ c ∈ spelling, isInk c := by
  have hdigit : ∀ c : Char, c.isDigit → Text.isInk c := fun c hc =>
    Text.isInk_eq_true_iff.mpr (Scan.isBlank_eq_false_of_isDigit hc)
  cases h with
  | openParen | closeParen | quoteMark => exact List.forall_mem_singleton.mpr (by decide)
  | boolean value =>
    refine List.forall_mem_cons.mpr ⟨by decide, List.forall_mem_singleton.mpr ?_⟩
    cases value <;> decide
  | character c => exact absurd rfl (hplain.ne_character _)
  | integer _ hdigits => exact fun c hc => hdigit c (hdigits c hc)
  | float _ hdigits hfraction =>
    intro c hc
    rcases List.mem_append.mp hc with hmem | hmem
    · exact hdigit c (hdigits c hmem)
    · rcases List.mem_cons.mp hmem with rfl | hmem
      · decide
      · exact hdigit c (hfraction c hmem)
  | atom hname => exact fun c hc => Text.isInk_eq_true_iff.mpr (hname.unbroken c hc).1

variable {mode : Mode} {first : Char} {rest text other : List Char} {token : Token}

/-- A text with the same fields begins with the same token, and has the same fields behind it. -/
theorem exists_scan_of_fields_eq (hblank : isBlank first = false)
    (htoken : (scan mode first rest).token = .ok token) (hplain : token.Plain)
    (h : fields (first :: rest) = fields other) :
    ∃ back, other.dropWhile isBlank = first :: back ∧
      (scan mode first back).token = .ok token ∧
      fields (scan mode first rest).rest = fields (scan mode first back).rest := by
  have hmode := scan_structural_of_known htoken hplain.known
  rw [hmode] at htoken ⊢
  have hspelled := Scan.spelled_of_scan hblank htoken hplain.known
  have hstart : ∀ c ∈ (other.dropWhile isBlank).head?, isInk c := by
    intro c hc
    have hnot := List.head?_dropWhile_not isBlank other
    rw [Option.mem_def.mp hc] at hnot
    exact Text.isInk_eq_true_iff.mpr (by simpa using hnot)
  rw [← scan_tiles .structural first rest, ← Text.fields_dropWhile_isBlank other] at h
  obtain ⟨back, hback, htake, hfields⟩ := Text.exists_append_of_fields_eq
    (scan_spelling_ne_nil .structural first rest) (hspelled.isInk hplain) hstart h
  obtain ⟨chars, hspelling, hscan⟩ := scan_congr hblank htoken hplain.known
    fun hends => (Scan.endsHere_congr htake).symm.trans hends
  refine ⟨chars ++ back, ?_, ?_, ?_⟩
  · rw [hback, hspelling, List.cons_append]
  · rw [hmode, hscan]
  · rw [hmode, hscan, hfields]

/-- A text without fields consists of blanks, like any other. -/
theorem dropWhile_isBlank_of_fields_eq (htext : text.dropWhile isBlank = [])
    (h : fields text = fields other) : other.dropWhile isBlank = [] := by
  rw [← Text.fields_dropWhile_isBlank text, htext, ← Text.fields_dropWhile_isBlank other] at h
  cases hother : other.dropWhile isBlank with
  | nil => rfl
  | cons c rest =>
    have hnot := List.head?_dropWhile_not isBlank other
    rw [hother] at h hnot
    have hink : isInk c := Text.isInk_eq_true_iff.mpr (by simpa using hnot)
    have hne : (c :: rest).takeWhile isInk ≠ [] := by
      rw [List.takeWhile_cons_of_pos hink]
      exact List.cons_ne_nil _ _
    rw [Text.fields_eq_cons hne] at h
    cases h

/-- Texts with the same fields have the same tokens, if no blank is a part of one. -/
theorem map_token_lexemes_of_fields_eq {position : Nat}
    (hplain : ∀ lexeme ∈ lexemes mode position text,
      ∃ token, lexeme.token = .ok token ∧ token.Plain) :
    ∀ other position', fields text = fields other →
      (lexemes mode position' other).map Lexeme.token =
        (lexemes mode position text).map Lexeme.token := by
  induction position, text using lexemes.induct mode with
  | case1 position text htext =>
    intro other position' h
    rw [lexemes_of_blank htext, lexemes_of_blank (dropWhile_isBlank_of_fields_eq htext h)]
  | case2 position text first rest htext result stop _ ih =>
    intro other position' h
    rw [lexemes_of_cons htext] at hplain ⊢
    obtain ⟨token, htoken, htokenPlain⟩ := hplain _ List.mem_cons_self
    rw [← Text.fields_dropWhile_isBlank text, htext] at h
    obtain ⟨back, hother, hback, hfields⟩ := exists_scan_of_fields_eq
      (Cursor.isBlank_eq_false_of_dropWhile htext) htoken htokenPlain h
    have hrest := ih (fun lexeme hmem => hplain lexeme (List.mem_cons_of_mem _ hmem)) _
      (position' + (other.takeWhile isBlank).length + (scan mode first back).spelling.length)
      hfields
    rw [lexemes_of_cons hother, List.map_cons, List.map_cons, hback, hrest]
    exact congrArg (· :: _) htoken.symm

/-- What is spelled like a literal, from its first character on, is one. -/
theorem Spelled.exists_literal {chars : List Char} (h : Spelled (first :: chars) token rest)
    (hfirst : first.isDigit ∨ first = '#') : ∃ value, token = .literal value := by
  generalize hspelling : first :: chars = spelling at h
  cases h with
  | boolean | character | integer | float => exact ⟨_, rfl⟩
  | openParen | closeParen | quoteMark =>
    obtain ⟨rfl, _⟩ := List.cons.inj hspelling
    exact absurd hfirst (by decide)
  | atom hname =>
    obtain ⟨start, hstart, hdigit, hhash, _⟩ := hname.start
    rw [← hspelling] at hstart
    obtain rfl := Option.some.inj hstart
    rcases hfirst with hfirst | hfirst
    · rw [hdigit] at hfirst
      cases hfirst
    · exact absurd hfirst hhash

/-- A token that begins like a literal is one. -/
theorem exists_literal_of_scan (hblank : isBlank first = false)
    (htoken : (scan mode first rest).token = .ok token) (hknown : token ≠ .unknown)
    (hfirst : first.isDigit ∨ first = '#') : ∃ value, token = .literal value := by
  have hspelled := Scan.spelled_of_scan hblank htoken hknown
  have htiles := scan_tiles mode first rest
  obtain ⟨start, chars, hspelling⟩ :=
    List.exists_cons_of_ne_nil (scan_spelling_ne_nil mode first rest)
  rw [hspelling] at hspelled htiles
  obtain ⟨rfl, _⟩ := List.cons.inj htiles
  exact hspelled.exists_literal hfirst

/-- Where literals are all that is scanned for, what is known is one. -/
theorem isLiteral_of_mem_lexemes {position : Nat} {lexeme : Lexeme}
    (hmem : lexeme ∈ lexemes .literals position text) (hknown : lexeme.Known) :
    lexeme.IsLiteral := by
  obtain ⟨token, htoken, hne⟩ := hknown
  obtain ⟨first, rest, hblank, _, hscan⟩ := Cursor.exists_scan_of_mem_lexemes hmem
  have hscanned := hscan.symm.trans htoken
  have hfirst : first.isDigit ∨ first = '#' := by
    by_contra hfirst
    have hunknown := (scan_literals_unknown hfirst).symm.trans hscanned
    exact hne (Except.ok.inj hunknown).symm
  obtain ⟨value, rfl⟩ := exists_literal_of_scan hblank hscanned hne hfirst
  exact ⟨value, htoken⟩

/-- What is no literal is an unknown piece then. -/
theorem unknown_of_mem_lexemes {position : Nat} {lexeme : Lexeme} {token : Token}
    (hmem : lexeme ∈ lexemes .literals position text) (htoken : lexeme.token = .ok token)
    (h : ¬ lexeme.IsLiteral) : token = .unknown := by
  by_contra hne
  exact h (isLiteral_of_mem_lexemes hmem ⟨token, htoken, hne⟩)

/-- Having the same literals, up to the end or up to an unknown piece. -/
inductive Matching : List Lexeme → List Lexeme → Prop
  | nil : Matching [] []
  | unknown {lexeme other : Lexeme} (rest others : List Lexeme) : lexeme.token = .ok .unknown →
      other.token = .ok .unknown → Matching (lexeme :: rest) (other :: others)
  | literal {lexeme other : Lexeme} {rest others : List Lexeme} (value : Literal) :
      lexeme.token = .ok (.literal value) → other.token = .ok (.literal value) →
      Matching rest others → Matching (lexeme :: rest) (other :: others)

/-- If literals are all that is scanned for, texts with the same fields agree as far as there are
literals. -/
theorem matching_of_fields_eq {position : Nat}
    (hplain : ∀ lexeme ∈ lexemes .structural position text,
      ∃ token, lexeme.token = .ok token ∧ token.Plain) :
    ∀ other position', fields text = fields other →
      Matching (lexemes .literals position text) (lexemes .literals position' other) := by
  induction position, text using lexemes.induct .structural with
  | case1 position text htext =>
    intro other position' h
    rw [lexemes_of_blank htext, lexemes_of_blank (dropWhile_isBlank_of_fields_eq htext h)]
    exact .nil
  | case2 position text first rest htext result stop _ ih =>
    intro other position' h
    rw [lexemes_of_cons htext] at hplain
    obtain ⟨token, htoken, htokenPlain⟩ := hplain _ List.mem_cons_self
    have hblank := Cursor.isBlank_eq_false_of_dropWhile htext
    rw [← Text.fields_dropWhile_isBlank text, htext] at h
    obtain ⟨back, hother, hback, hfields⟩ :=
      exists_scan_of_fields_eq hblank htoken htokenPlain h
    rw [lexemes_of_cons htext, lexemes_of_cons hother]
    by_cases hfirst : first.isDigit ∨ first = '#'
    · obtain ⟨value, rfl⟩ := exists_literal_of_scan hblank htoken htokenPlain.known hfirst
      rw [scan_literals hfirst, scan_literals hfirst]
      exact .literal value htoken hback
        (ih (fun lexeme hmem => hplain lexeme (List.mem_cons_of_mem _ hmem)) _ _ hfields)
    · exact .unknown _ _ (scan_literals_unknown hfirst) (scan_literals_unknown hfirst)

end SmallScheme
