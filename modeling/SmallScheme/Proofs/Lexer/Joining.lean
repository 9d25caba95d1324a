import SmallScheme.Proofs.Lexer.Numerals

/-!
# Tokens of joined texts

The tokens of a text are still its tokens when more is written behind it, provided that each of them
is known and that the text behind ends a name (`lexemes_append`). An unknown piece is no such token:
what is written behind it may run together with it. Written elsewhere, a text has the same tokens,
and only their positions are moved (`lexemes_moved`).
-/

namespace SmallScheme

open Text (isBlank)

/-- The fault that is met in a text with so many characters more in front. -/
def Fault.moved (offset : Nat) : Fault → Fault
  | .reported (.unknownToken position) => .reported (.unknownToken (position + offset))
  | fault => fault

/-- The lexeme of a text with so many characters more in front. -/
def Lexeme.moved (offset : Nat) (lexeme : Lexeme) : Lexeme :=
  { lexeme with
    token := lexeme.token.mapError (Fault.moved offset)
    stop := lexeme.stop + offset }

/-- Being a token other than a piece that is none. -/
def Lexeme.Known (lexeme : Lexeme) : Prop :=
  ∃ token, lexeme.token = .ok token ∧ token ≠ .unknown

theorem Scan.endsHere_append {rest more : List Char} (h : endsHere rest) (hmore : endsHere more) :
    endsHere (rest ++ more) := by
  cases rest with
  | nil => exact hmore
  | cons => exact h

/-- What spells a token in front of a text does so in front of any other that ends a literal if the
first one does. -/
theorem Spelled.congr {spelling rest other : List Char} {token : Token}
    (h : Spelled spelling token rest) (hother : Scan.endsHere rest → Scan.endsHere other) :
    Spelled spelling token other := by
  cases h with
  | openParen => exact .openParen _
  | closeParen => exact .closeParen _
  | quoteMark => exact .quoteMark _
  | boolean value => exact .boolean value _
  | character c hends => exact .character c (hother hends)
  | integer hne hdigits hlength hgreatest hends =>
    exact .integer hne hdigits hlength hgreatest (hother hends)
  | float hne hdigits hfraction hends => exact .float hne hdigits hfraction (hother hends)
  | atom hname hends => exact .atom hname (hother hends)

/-- A token that is known is scanned alike in front of any other text that ends a literal if its
own one does. -/
theorem scan_congr {first : Char} {rest other : List Char} {token : Token}
    (hblank : isBlank first = false) (htoken : (scan .structural first rest).token = .ok token)
    (hknown : token ≠ .unknown)
    (hother : Scan.endsHere (scan .structural first rest).rest → Scan.endsHere other) :
    ∃ chars, (scan .structural first rest).spelling = first :: chars ∧
      scan .structural first (chars ++ other) =
        ⟨.ok token, (scan .structural first rest).spelling, other⟩ := by
  have hspelled := (Scan.spelled_of_scan hblank htoken hknown).congr hother
  obtain ⟨start, chars, hspelling, _, hscan⟩ := scan_of_spelled hspelled
  have htiles := scan_tiles .structural first rest
  rw [hspelling, List.cons_append] at htiles
  obtain ⟨rfl, _⟩ := List.cons.inj htiles
  exact ⟨chars, hspelling, hscan⟩

/-- A token that is known is scanned alike when more is written behind the text. -/
theorem scan_append {first : Char} {rest more : List Char} {token : Token}
    (hblank : isBlank first = false) (htoken : (scan .structural first rest).token = .ok token)
    (hknown : token ≠ .unknown) (hmore : Scan.endsHere more) :
    scan .structural first (rest ++ more) =
      ⟨.ok token, (scan .structural first rest).spelling,
        (scan .structural first rest).rest ++ more⟩ := by
  obtain ⟨chars, hspelling, hscan⟩ :=
    scan_congr hblank htoken hknown fun hends => Scan.endsHere_append hends hmore
  have htiles := scan_tiles .structural first rest
  rw [hspelling, List.cons_append] at htiles
  rwa [← List.append_assoc, (List.cons.inj htiles).2] at hscan

/-- Blanks in front of a text only move its tokens. -/
theorem lexemes_blanks_append (mode : Mode) (position : Nat) {blanks : List Char}
    (h : ∀ c ∈ blanks, isBlank c) (text : List Char) :
    lexemes mode position (blanks ++ text) = lexemes mode (position + blanks.length) text := by
  have hdrop : (blanks ++ text).dropWhile isBlank = text.dropWhile isBlank :=
    List.dropWhile_append_of_pos h
  have htake : (blanks ++ text).takeWhile isBlank = blanks ++ text.takeWhile isBlank :=
    List.takeWhile_append_of_pos h
  cases htext : text.dropWhile isBlank with
  | nil => rw [lexemes_of_blank htext, lexemes_of_blank (hdrop.trans htext)]
  | cons first rest =>
    rw [lexemes_of_cons htext, lexemes_of_cons (hdrop.trans htext), htake, List.length_append,
      ← Nat.add_assoc]

/-- A token is cut off together with the blanks in front of it. -/
theorem length_of_dropWhile (mode : Mode) {text rest : List Char} {first : Char}
    (h : text.dropWhile isBlank = first :: rest) :
    text.length = (text.takeWhile isBlank).length + (scan mode first rest).spelling.length +
      (scan mode first rest).rest.length := by
  have hblanks : (text.takeWhile isBlank ++ text.dropWhile isBlank).length = text.length := by
    rw [List.takeWhile_append_dropWhile]
  have htiles := congrArg List.length (scan_tiles mode first rest)
  rw [h, List.length_append] at hblanks
  rw [List.length_append] at htiles
  omega

/-- Known tokens are the first of a text, and those of what is written behind them follow. -/
theorem lexemes_append {position : Nat} {text more : List Char}
    (hknown : ∀ lexeme ∈ lexemes .structural position text, lexeme.Known)
    (hmore : Scan.endsHere more) :
    lexemes .structural position (text ++ more) =
      lexemes .structural position text ++
        lexemes .structural (position + text.length) more := by
  induction position, text using lexemes.induct .structural with
  | case1 position text htext =>
    rw [lexemes_of_blank htext, List.nil_append]
    exact lexemes_blanks_append _ _ (List.dropWhile_eq_nil_iff.mp htext) more
  | case2 position text first rest htext result stop _ ih =>
    have hfirst := Cursor.isBlank_eq_false_of_dropWhile htext
    rw [lexemes_of_cons htext] at hknown ⊢
    obtain ⟨token, htoken, hne⟩ := hknown _ List.mem_cons_self
    have hscan := scan_append hfirst htoken hne hmore
    have hwhole : text.takeWhile isBlank ++ first :: (rest ++ more) = text ++ more := by
      rw [← List.cons_append, ← htext, ← List.append_assoc, List.takeWhile_append_dropWhile]
    have hall : ∀ c ∈ text.takeWhile isBlank, isBlank c := fun c hc => List.mem_takeWhile_imp hc
    have hend : ∀ c ∈ (first :: (rest ++ more)).head?, isBlank c = false := by
      rintro c ⟨⟩
      exact hfirst
    -- Behind the same blanks the same token is scanned, and more is left.
    obtain ⟨hblanks, hahead⟩ := Scan.takeWhile_append_of_stop hall hend
    rw [hwhole] at hblanks hahead
    have hstop : position + text.length = stop + result.rest.length := by
      rw [length_of_dropWhile .structural htext]
      simp only [stop, result]
      omega
    rw [lexemes_of_cons hahead, hscan, hblanks, hstop, List.cons_append,
      ← ih fun lexeme hmem => hknown lexeme (List.mem_cons_of_mem _ hmem), ← htoken]

/-- What a place in a text is scanned as does not depend on where it is. -/
theorem mapError_scan_token (offset : Nat) (mode : Mode) (first : Char) (rest : List Char) :
    (scan mode first rest).token.mapError (Fault.moved offset) = (scan mode first rest).token := by
  rcases htoken : (scan mode first rest).token with fault | token
  · obtain ⟨⟨count, rfl⟩, _⟩ := tooLong_of_scan htoken
    rfl
  · rfl

/-- In a text with more in front of it the lexemes are the same, further on. -/
theorem lexemes_moved (mode : Mode) (position offset : Nat) (text : List Char) :
    lexemes mode (position + offset) text =
      (lexemes mode position text).map (Lexeme.moved offset) := by
  induction position, text using lexemes.induct mode with
  | case1 position text htext => rw [lexemes_of_blank htext, lexemes_of_blank htext, List.map_nil]
  | case2 position text first rest htext result stop _ ih =>
    have hstop : position + offset + (text.takeWhile isBlank).length + result.spelling.length =
        stop + offset := by
      simp only [stop]
      omega
    rw [lexemes_of_cons htext, lexemes_of_cons htext, hstop, ih, List.map_cons, Lexeme.moved,
      mapError_scan_token]

/-- Two texts with a blank between them have the tokens of the first and then those of the second,
further on. -/
theorem lexemes_append_blank {text : List Char} {c : Char} (more : List Char)
    (hknown : ∀ lexeme ∈ lexemes .structural 0 text, lexeme.Known) (hblank : isBlank c) :
    lexemes .structural 0 (text ++ c :: more) =
      lexemes .structural 0 text ++
        (lexemes .structural 0 more).map (Lexeme.moved (text.length + 1)) := by
  have hends : Scan.endsHere (c :: more) := by
    rw [Scan.endsHere, hblank, Bool.true_or]
  have hskip : ∀ position, lexemes .structural position (c :: more) =
      lexemes .structural (position + 1) more := fun position =>
    lexemes_blanks_append .structural position (List.forall_mem_singleton.mpr hblank) more
  rw [lexemes_append hknown hends, hskip, ← lexemes_moved, Nat.add_assoc]

end SmallScheme
