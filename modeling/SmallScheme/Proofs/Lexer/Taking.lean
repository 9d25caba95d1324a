import SmallScheme.Lexer.Stream
import SmallScheme.Proofs.Lexer.Scanning

/-!
# Taking tokens one after the other

A text is cut into tokens by a cursor that takes one after the other, and read from the row of its
lexemes. Both are the same: the lexemes ahead of a cursor are the tokens that it takes, each with
the position that the cursor has behind it.
-/

namespace SmallScheme

open Text (isBlank)

theorem lexemes_of_blank {mode : Mode} {position : Nat} {text : List Char}
    (h : text.dropWhile isBlank = []) : lexemes mode position text = [] := by
  rw [lexemes]
  split
  · rfl
  · next hcons =>
    rw [h] at hcons
    cases hcons

theorem lexemes_of_cons {mode : Mode} {position : Nat} {text rest : List Char} {first : Char}
    (h : text.dropWhile isBlank = first :: rest) :
    lexemes mode position text =
      ⟨(scan mode first rest).token, (scan mode first rest).spelling,
        position + (text.takeWhile isBlank).length + (scan mode first rest).spelling.length⟩ ::
      lexemes mode
        (position + (text.takeWhile isBlank).length + (scan mode first rest).spelling.length)
        (scan mode first rest).rest := by
  rw [lexemes]
  split
  · next hnil =>
    rw [h] at hnil
    cases hnil
  · next hcons =>
    rw [h] at hcons
    cases hcons
    rfl

namespace Cursor

/-- The lexemes ahead of a cursor. -/
def lexemes (cursor : Cursor) : List Lexeme :=
  SmallScheme.lexemes cursor.mode cursor.position cursor.ahead

theorem next_of_blank {cursor : Cursor} (h : cursor.ahead.dropWhile isBlank = []) :
    cursor.next = (.ok .endOfInput, cursor.skipBlanks) := by
  have hahead : cursor.skipBlanks.ahead = [] := h
  simp only [next, hahead]

theorem next_of_cons {cursor : Cursor} {first : Char} {rest : List Char}
    (h : cursor.ahead.dropWhile isBlank = first :: rest) :
    cursor.next = ((scan cursor.mode first rest).token,
      cursor.skipBlanks.moved (scan cursor.mode first rest).spelling
        (scan cursor.mode first rest).rest) := by
  have hahead : cursor.skipBlanks.ahead = first :: rest := h
  simp only [next, hahead]

/-- A blank in front of a text is skipped. -/
theorem next_of_isBlank {mode : Mode} {position : Nat} {c : Char} {text : List Char}
    (h : isBlank c) :
    next ⟨mode, position, c :: text⟩ = next ⟨mode, position + 1, text⟩ := by
  have hskip : skipBlanks ⟨mode, position, c :: text⟩ = skipBlanks ⟨mode, position + 1, text⟩ := by
    simp only [skipBlanks, takeWhile, moved, List.takeWhile_cons_of_pos h,
      List.dropWhile_cons_of_pos h, List.length_cons, Cursor.mk.injEq, true_and, and_true]
    omega
  simp only [next, hskip]

/-- Blanks are skipped up to something else. -/
theorem isBlank_eq_false_of_dropWhile {text rest : List Char} {first : Char}
    (h : text.dropWhile isBlank = first :: rest) : isBlank first = false := by
  have hstop := List.head?_dropWhile_not isBlank text
  rw [h] at hstop
  simpa using hstop

/-- The cursor is moved over what it takes. -/
theorem next_tiles (cursor : Cursor) :
    ∃ piece, cursor.ahead = piece ++ cursor.next.2.ahead ∧
      cursor.next.2.position = cursor.position + piece.length := by
  have hblanks : cursor.ahead.takeWhile isBlank ++ cursor.skipBlanks.ahead = cursor.ahead :=
    List.takeWhile_append_dropWhile
  cases htext : cursor.ahead.dropWhile isBlank with
  | nil =>
    rw [next_of_blank htext]
    exact ⟨_, hblanks.symm, rfl⟩
  | cons first rest =>
    rw [next_of_cons htext]
    refine ⟨cursor.ahead.takeWhile isBlank ++ (scan cursor.mode first rest).spelling, ?_, ?_⟩
    · rw [List.append_assoc]
      change _ = _ ++ ((scan cursor.mode first rest).spelling ++ (scan cursor.mode first rest).rest)
      rw [scan_tiles, ← htext]
      exact hblanks.symm
    · rw [List.length_append, ← Nat.add_assoc]
      rfl

/-- A token is spelled right before the place where it leaves the cursor. -/
theorem spelled_of_next {cursor after : Cursor} {token : Token}
    (h : cursor.next = (.ok token, after)) (hknown : token ≠ .unknown) (hne : token ≠ .endOfInput) :
    ∃ spelling, Spelled spelling token after.ahead ∧
      cursor.ahead = cursor.ahead.takeWhile isBlank ++ (spelling ++ after.ahead) := by
  cases htext : cursor.ahead.dropWhile isBlank with
  | nil =>
    rw [next_of_blank htext] at h
    cases h
    exact absurd rfl hne
  | cons first rest =>
    rw [next_of_cons htext] at h
    obtain ⟨htoken, rfl⟩ := Prod.mk.inj h
    refine ⟨(scan cursor.mode first rest).spelling,
      Scan.spelled_of_scan (isBlank_eq_false_of_dropWhile htext) htoken hknown, ?_⟩
    change _ = _ ++ ((scan cursor.mode first rest).spelling ++ (scan cursor.mode first rest).rest)
    rw [scan_tiles, ← htext, List.takeWhile_append_dropWhile]

/-- Each lexeme is scanned somewhere in the text, from a character that is no blank. -/
theorem exists_scan_of_mem_lexemes {mode : Mode} {position : Nat} {text : List Char}
    {lexeme : Lexeme} (hmem : lexeme ∈ SmallScheme.lexemes mode position text) :
    ∃ first rest, isBlank first = false ∧ first :: rest <:+ text ∧
      lexeme.token = (scan mode first rest).token := by
  induction position, text using SmallScheme.lexemes.induct mode with
  | case1 position text htext =>
    rw [lexemes_of_blank htext] at hmem
    exact absurd hmem List.not_mem_nil
  | case2 position text first rest htext result stop _ ih =>
    have hahead : first :: rest <:+ text := htext ▸ List.dropWhile_suffix isBlank
    rw [lexemes_of_cons htext] at hmem
    rcases List.mem_cons.mp hmem with rfl | hrest
    · exact ⟨first, rest, isBlank_eq_false_of_dropWhile htext, hahead, rfl⟩
    · obtain ⟨start, others, hblank, hsuffix, htoken⟩ := ih hrest
      have hleft : result.rest <:+ first :: rest := ⟨result.spelling, scan_tiles mode first rest⟩
      exact ⟨start, others, hblank, hsuffix.trans (hleft.trans hahead), htoken⟩

/-- The token at the end is never scanned. -/
theorem scan_token_ne_endOfInput {mode : Mode} {first : Char} {rest : List Char}
    (hblank : isBlank first = false) : (scan mode first rest).token ≠ .ok .endOfInput := by
  intro h
  exact (Scan.spelled_of_scan hblank h (by decide)).ne_endOfInput rfl

/-- Nor is it a lexeme. -/
theorem token_ne_endOfInput_of_mem_lexemes {mode : Mode} {position : Nat} {text : List Char}
    {lexeme : Lexeme} (hmem : lexeme ∈ SmallScheme.lexemes mode position text) :
    lexeme.token ≠ .ok .endOfInput := by
  obtain ⟨first, rest, hblank, _, htoken⟩ := exists_scan_of_mem_lexemes hmem
  exact htoken ▸ scan_token_ne_endOfInput hblank

/-- A cursor takes the first of the lexemes ahead and stands in front of the others, or it takes
the token at the end because there are none. -/
theorem lexemes_cases (cursor : Cursor) :
    (cursor.lexemes = [] ∧ cursor.next = (.ok .endOfInput, cursor.skipBlanks)) ∨
      (cursor.next.1 ≠ .ok .endOfInput ∧ ∃ spelling,
        cursor.lexemes =
          ⟨cursor.next.1, spelling, cursor.next.2.position⟩ :: cursor.next.2.lexemes) := by
  cases htext : cursor.ahead.dropWhile isBlank with
  | nil => exact Or.inl ⟨lexemes_of_blank htext, next_of_blank htext⟩
  | cons first rest =>
    right
    rw [next_of_cons htext]
    refine ⟨scan_token_ne_endOfInput (isBlank_eq_false_of_dropWhile htext), ?_⟩
    exact ⟨_, lexemes_of_cons htext⟩

/-- A token other than the one at the end is the first lexeme ahead. -/
theorem lexemes_of_next {cursor after : Cursor} {token : Token}
    (h : cursor.next = (.ok token, after)) (hne : token ≠ .endOfInput) :
    ∃ spelling, cursor.lexemes = ⟨.ok token, spelling, after.position⟩ :: after.lexemes := by
  rcases cursor.lexemes_cases with ⟨_, hnext⟩ | ⟨_, spelling, hlexemes⟩
  · rw [h] at hnext
    cases hnext
    exact absurd rfl hne
  · rw [h] at hlexemes
    exact ⟨spelling, hlexemes⟩

/-- The first lexeme ahead is the token that is taken next. -/
theorem next_of_lexemes {cursor : Cursor} {lexeme : Lexeme} {rest : List Lexeme}
    (h : cursor.lexemes = lexeme :: rest) :
    cursor.next.1 = lexeme.token ∧ cursor.next.2.position = lexeme.stop ∧
      cursor.next.2.lexemes = rest := by
  rcases cursor.lexemes_cases with ⟨hnil, _⟩ | ⟨_, spelling, hlexemes⟩
  · rw [hnil] at h
    cases h
  · rw [hlexemes] at h
    cases h
    exact ⟨rfl, rfl, rfl⟩

/-- Taking tokens one after the other, none of which is a fault. -/
inductive Takes : Cursor → List Token → Cursor → Prop
  | none (cursor : Cursor) : Takes cursor [] cursor
  | next {cursor after last : Cursor} {token : Token} {tokens : List Token} :
      cursor.next = (.ok token, after) → Takes after tokens last →
      Takes cursor (token :: tokens) last

namespace Takes

variable {cursor middle last other : Cursor} {tokens others : List Token}

theorem single {token : Token} (h : cursor.next = (.ok token, last)) :
    Takes cursor [token] last :=
  .next h (.none last)

/-- Where tokens come from does not matter if the first is the same and leads to the same place. -/
theorem of_next_eq (h : Takes cursor tokens last) (hnext : other.next = cursor.next)
    (hne : tokens ≠ []) : Takes other tokens last := by
  cases h with
  | none => exact absurd rfl hne
  | next hfirst hrest => exact .next (hnext.trans hfirst) hrest

theorem append (h : Takes cursor tokens middle) (hothers : Takes middle others last) :
    Takes cursor (tokens ++ others) last := by
  induction h with
  | none => exact hothers
  | next hnext _ ih => exact .next hnext (ih hothers)

/-- Tokens that are taken in one go are taken in two. -/
theorem split (h : Takes cursor (tokens ++ others) last) :
    ∃ middle, Takes cursor tokens middle ∧ Takes middle others last := by
  induction tokens generalizing cursor with
  | nil => exact ⟨cursor, .none cursor, h⟩
  | cons token tokens ih =>
    cases h with
    | next hnext hrest =>
      obtain ⟨middle, htokens, hothers⟩ := ih hrest
      exact ⟨middle, .next hnext htokens, hothers⟩

/-- As many tokens from the same place are the same and lead to the same place. -/
theorem eq_of_length (h : Takes cursor tokens last) (hother : Takes cursor others other)
    (hlength : tokens.length = others.length) : tokens = others ∧ last = other := by
  induction h generalizing others with
  | none =>
    obtain rfl := List.length_eq_zero_iff.mp hlength.symm
    cases hother
    exact ⟨rfl, rfl⟩
  | next hnext _ ih =>
    cases hother with
    | none => cases hlength
    | next hnext' hrest =>
      rw [hnext] at hnext'
      cases hnext'
      obtain ⟨rfl, rfl⟩ := ih hrest (Nat.succ.inj hlength)
      exact ⟨rfl, rfl⟩

/-- The cursor is moved over the tokens that are taken. -/
theorem tiles (h : Takes cursor tokens last) :
    ∃ piece, cursor.ahead = piece ++ last.ahead ∧
      last.position = cursor.position + piece.length := by
  induction h with
  | none => exact ⟨[], rfl, rfl⟩
  | @next cursor after last token tokens hnext _ ih =>
    obtain ⟨front, hfront, hposition⟩ := cursor.next_tiles
    obtain ⟨piece, hpiece, hlast⟩ := ih
    rw [hnext] at hfront hposition
    refine ⟨front ++ piece, ?_, ?_⟩
    · rw [hfront, hpiece, List.append_assoc]
    · rw [hlast, hposition, List.length_append, Nat.add_assoc]

/-- The tokens that are taken are spelled in the text. -/
theorem allSpelled (h : Takes cursor tokens last) : AllSpelled tokens := by
  induction h with
  | none =>
    intro token hmem
    exact absurd hmem List.not_mem_nil
  | next hnext _ ih =>
    intro token hmem hknown hne
    rcases List.mem_cons.mp hmem with rfl | hmem
    · obtain ⟨spelling, hspelled, _⟩ := spelled_of_next hnext hknown hne
      exact ⟨spelling, _, hspelled⟩
    · exact ih token hmem hknown hne

/-- The text up to the cursor ends with the spelling of the token taken last. -/
theorem spelled_last {mode : Mode} {text : List Char} {token : Token}
    (h : Takes (ofText mode text) (tokens ++ [token]) last) (hknown : token ≠ .unknown)
    (hne : token ≠ .endOfInput) :
    last.ahead = text.drop last.position ∧
      ∃ spelling, Spelled spelling token last.ahead ∧ spelling <:+ text.take last.position := by
  obtain ⟨piece, htext, hposition⟩ := h.tiles
  have hpiece : last.position = piece.length := hposition.trans (Nat.zero_add _)
  change text = piece ++ last.ahead at htext
  obtain ⟨middle, hfront, hlast⟩ := h.split
  obtain ⟨front, hmiddle, _⟩ := hfront.tiles
  change text = front ++ middle.ahead at hmiddle
  cases hlast with
  | next hnext hnone =>
    cases hnone
    obtain ⟨spelling, hspelled, hahead⟩ := spelled_of_next hnext hknown hne
    rw [hpiece]
    refine ⟨?_, spelling, hspelled, front ++ middle.ahead.takeWhile isBlank, ?_⟩
    · rw [htext, List.drop_left]
    · have hwhole : (front ++ middle.ahead.takeWhile isBlank ++ spelling) ++ last.ahead =
          piece ++ last.ahead := by
        rw [← htext, hmiddle, List.append_assoc, List.append_assoc, ← hahead]
      rw [htext, List.take_left]
      exact List.append_cancel_right hwhole

/-- More tokens from the same place begin with the fewer. -/
theorem exists_append_of_length_le (h : Takes cursor tokens last)
    (hother : Takes cursor others other) (hlength : tokens.length ≤ others.length) :
    ∃ rest, others = tokens ++ rest := by
  rw [← List.take_append_drop tokens.length others] at hother
  obtain ⟨middle, hfirst, _⟩ := hother.split
  obtain ⟨htokens, _⟩ := h.eq_of_length hfirst (List.length_take_of_le hlength).symm
  have hwhole := List.take_append_drop tokens.length others
  rw [← htokens] at hwhole
  exact ⟨_, hwhole.symm⟩

end Takes

end Cursor

/-- Lexemes have these tokens just if there is no fault among them. -/
theorem mapM_token_eq_ok_iff {lexemes : List Lexeme} {tokens : List Token} :
    lexemes.mapM Lexeme.token = .ok tokens ↔ lexemes.map Lexeme.token = tokens.map .ok := by
  induction lexemes generalizing tokens with
  | nil => cases tokens <;> simp [pure, Except.pure]
  | cons lexeme lexemes ih =>
    rw [List.mapM_cons, List.map_cons]
    constructor
    · intro h
      rcases htoken : lexeme.token with fault | token
      · rw [htoken] at h
        cases h
      · rcases hrest : lexemes.mapM Lexeme.token with fault | rest
        · rw [htoken, hrest] at h
          cases h
        · rw [htoken, hrest] at h
          cases h
          rw [ih.mp hrest, List.map_cons]
    · intro h
      obtain ⟨token, rest, rfl, htoken, hrest⟩ := List.map_eq_cons_iff.mp h.symm
      rw [← htoken, ih.mpr hrest.symm]
      rfl

/-- The tokens of a text are those of its lexemes, if none of these is a fault, and the one at the
end. -/
theorem lex_eq_ok_iff {mode : Mode} {text : List Char} {tokens : List Token} :
    lex mode text = .ok tokens ↔ ∃ front, tokens = front ++ [.endOfInput] ∧
      (lexemes mode 0 text).map Lexeme.token = front.map .ok := by
  unfold lex
  constructor
  · intro h
    rcases hfront : (lexemes mode 0 text).mapM Lexeme.token with fault | front
    · rw [hfront] at h
      cases h
    · rw [hfront] at h
      cases h
      exact ⟨front, rfl, mapM_token_eq_ok_iff.mp hfront⟩
  · rintro ⟨front, rfl, h⟩
    rw [mapM_token_eq_ok_iff.mpr h]
    rfl

end SmallScheme
