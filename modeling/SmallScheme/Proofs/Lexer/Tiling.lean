import Mathlib.Data.List.Chain
import SmallScheme.Proofs.Lexer.Numerals

/-!
# The tokens tile the text

A token is taken together with the blanks in front of it, and the cursor is moved over these and
over the piece that the token is cut from. So the pieces make up the text, with nothing but blanks
between them and at the end: no character is passed over or read twice (`lex_tiles`). Each token
takes at least one character, which is why there is an end to taking tokens.
-/

namespace SmallScheme

open Text (isBlank)

/-- An integer is spelled by all the digits from its first one on. -/
theorem Spelled.eq_takeWhile_isDigit {spelling rest : List Char} {value : Int}
    (h : Spelled spelling (.literal (.integer value)) rest) :
    spelling = (spelling ++ rest).takeWhile Char.isDigit := by
  cases h with
  | integer _ hdigits _ _ hends =>
    exact (Scan.takeWhile_append_of_stop hdigits (Scan.isDigit_eq_false_of_endsHere hends)).1.symm

/-- What spells a token right in front of a digit does not end with one. -/
theorem Spelled.getLast?_isDigit {spelling rest : List Char} {token : Token} {c : Char}
    (h : Spelled spelling token rest) (hc : c ∈ rest.head?) (hdigit : c.isDigit) :
    ∀ last ∈ spelling.getLast?, last.isDigit = false := by
  have hnot : ¬ Scan.endsHere rest := by
    intro hends
    rw [Scan.isDigit_eq_false_of_endsHere hends c hc] at hdigit
    cases hdigit
  cases h with
  | openParen | closeParen | quoteMark =>
    rintro last ⟨⟩
    rfl
  | boolean value =>
    cases value <;> (rintro last ⟨⟩; rfl)
  | character _ hends | integer _ _ _ _ hends | float _ _ _ hends | atom _ hends =>
    exact absurd hends hnot

/-- A token, with the blanks in front of it and the piece of text that it is cut from. -/
structure Tile where
  blanks : List Char
  spelling : List Char
  token : Token

namespace Tile

/-- The text that a tile covers. -/
def text (tile : Tile) : List Char :=
  tile.blanks ++ tile.spelling

/-- Being what a cursor takes next, and where this leaves it. -/
structure Covers (tile : Tile) (cursor after : Cursor) : Prop where
  next : cursor.next = (.ok tile.token, after)
  ahead : cursor.ahead = tile.text ++ after.ahead
  /-- The cursor is moved over the blanks first. -/
  skipped : cursor.skipBlanks = cursor.moved tile.blanks (tile.spelling ++ after.ahead)
  /-- Behind the blanks it is moved over the piece that spells the token. -/
  taken : after = cursor.skipBlanks.moved tile.spelling after.ahead
  blanks : ∀ c ∈ tile.blanks, isBlank c
  spelling_ne_nil : tile.spelling ≠ []
  token_ne_end : tile.token ≠ .endOfInput
  spelled : tile.token ≠ .unknown → Spelled tile.spelling tile.token after.ahead
  /-- An integer goes on as long as there are digits. -/
  digits : ∀ value, tile.token = .literal (.integer value) →
    tile.spelling = (tile.spelling ++ after.ahead).takeWhile Char.isDigit

/-- What is between two tiles in a row: an integer does not go on with the digits of a known token
right in front of it. -/
def Borders (tile other : Tile) : Prop :=
  tile.token ≠ .unknown → other.blanks = [] →
    (∃ value, other.token = .literal (.integer value)) →
    ∀ last ∈ tile.spelling.getLast?, last.isDigit = false

theorem Covers.borders {tile other : Tile} {cursor middle after : Cursor}
    (h : tile.Covers cursor middle) (hother : other.Covers middle after) : tile.Borders other := by
  rintro hknown hblanks ⟨value, hvalue⟩
  obtain ⟨c, chars, hspelling⟩ := List.exists_cons_of_ne_nil hother.spelling_ne_nil
  have hdigit : c.isDigit := by
    have hrun := hother.digits value hvalue
    exact List.mem_takeWhile_imp (hrun ▸ hspelling ▸ List.mem_cons_self)
  refine (h.spelled hknown).getLast?_isDigit (c := c) ?_ hdigit
  rw [hother.ahead, Tile.text, hblanks, hspelling]
  rfl

end Tile

namespace Cursor

variable {cursor after last : Cursor} {tiles : List Tile} {token : Token}

/-- Whatever token is taken, a tile is covered. -/
theorem exists_covers (h : cursor.next = (.ok token, after)) (hne : token ≠ .endOfInput) :
    ∃ tile : Tile, tile.token = token ∧ tile.Covers cursor after := by
  cases htext : cursor.ahead.dropWhile isBlank with
  | nil =>
    rw [next_of_blank htext] at h
    cases h
    exact absurd rfl hne
  | cons first rest =>
    have hblank := isBlank_eq_false_of_dropWhile htext
    rw [next_of_cons htext] at h
    obtain ⟨htoken, rfl⟩ := Prod.mk.inj h
    have htiles := scan_tiles cursor.mode first rest
    have hspelled : token ≠ .unknown → Spelled (scan cursor.mode first rest).spelling token
        (scan cursor.mode first rest).rest :=
      fun hknown => Scan.spelled_of_scan hblank htoken hknown
    refine ⟨⟨cursor.ahead.takeWhile isBlank, (scan cursor.mode first rest).spelling, token⟩, rfl,
      ?_, ?_, ?_, rfl, fun c hc => List.mem_takeWhile_imp hc, scan_spelling_ne_nil _ _ _, hne,
      hspelled, ?_⟩
    · rw [next_of_cons htext, htoken]
    · change cursor.ahead = _ ++ (scan cursor.mode first rest).rest
      rw [Tile.text, List.append_assoc, htiles, ← htext, List.takeWhile_append_dropWhile]
    · refine congrArg (cursor.moved (cursor.ahead.takeWhile isBlank)) ?_
      exact htext.trans htiles.symm
    · intro value hvalue
      obtain rfl : token = .literal (.integer value) := hvalue
      exact (hspelled Token.noConfusion).eq_takeWhile_isDigit

/-- Taking tokens one after the other, each with the tile that is covered. -/
inductive Covered : Cursor → List Tile → Cursor → Prop
  | none (cursor : Cursor) : Covered cursor [] cursor
  | next {cursor after last : Cursor} {tile : Tile} {tiles : List Tile} :
      tile.Covers cursor after → Covered after tiles last → Covered cursor (tile :: tiles) last

namespace Covered

/-- The tiles make up the text that the cursor has passed. -/
theorem ahead_eq (h : Covered cursor tiles last) :
    cursor.ahead = tiles.flatMap Tile.text ++ last.ahead := by
  induction h with
  | none => rfl
  | next hcovers _ ih => rw [hcovers.ahead, ih, List.flatMap_cons, List.append_assoc]

theorem mode_eq (h : Covered cursor tiles last) : last.mode = cursor.mode := by
  induction h with
  | none => rfl
  | next hcovers _ ih =>
    rw [ih, hcovers.taken]
    rfl

/-- The cursor counts the characters of the tiles. -/
theorem position_eq (h : Covered cursor tiles last) :
    last.position = cursor.position + (tiles.flatMap Tile.text).length := by
  induction h with
  | none => rfl
  | @next cursor after last tile tiles hcovers _ ih =>
    have hafter : after.position = cursor.position + tile.text.length := by
      rw [hcovers.taken, hcovers.skipped, Tile.text, List.length_append, ← Nat.add_assoc]
      rfl
    rw [ih, hafter, List.flatMap_cons, List.length_append, Nat.add_assoc]

theorem isChain (h : Covered cursor tiles last) : tiles.IsChain Tile.Borders := by
  induction h with
  | none => exact .nil
  | next hcovers hrest ih =>
    cases hrest with
    | none => exact .singleton _
    | next hother _ => exact .cons_cons (hcovers.borders hother) ih

/-- There are no more tiles than characters. -/
theorem length_le (h : Covered cursor tiles last) :
    tiles.length ≤ (tiles.flatMap Tile.text).length := by
  induction h with
  | none => exact Nat.le_refl 0
  | next hcovers _ ih =>
    have hpos := List.length_pos_iff.mpr hcovers.spelling_ne_nil
    rw [List.length_cons, List.flatMap_cons, List.length_append, Tile.text, List.length_append]
    omega

/-- The lexemes ahead are the tokens of the tiles, and behind these the lexemes behind them. -/
theorem map_token_lexemes (h : Covered cursor tiles last) :
    cursor.lexemes.map Lexeme.token =
      (tiles.map Tile.token).map .ok ++ last.lexemes.map Lexeme.token := by
  induction h with
  | none => rfl
  | next hcovers _ ih =>
    obtain ⟨spelling, hlexemes⟩ := lexemes_of_next hcovers.next hcovers.token_ne_end
    rw [hlexemes, List.map_cons, ih]
    rfl

/-- Taking all tokens takes those of the tiles, and the one at the end if nothing is left. -/
theorem rest_eq (h : Covered cursor tiles last) (hend : last.skipBlanks.ahead = []) :
    cursor.rest = (.ok (tiles.map Tile.token ++ [.endOfInput]), last.skipBlanks) := by
  induction h with
  | none =>
    rw [Cursor.rest, dif_pos hend]
    rfl
  | @next cursor after last tile tiles hcovers _ ih =>
    have hne : cursor.skipBlanks.ahead ≠ [] := by
      rw [hcovers.skipped]
      exact List.append_ne_nil_of_left_ne_nil hcovers.spelling_ne_nil after.ahead
    rw [Cursor.rest, dif_neg hne]
    dsimp only
    rw [hcovers.next]
    dsimp only
    rw [ih hend]
    rfl

end Covered

/-- Tokens are taken up to the end of the text, unless a numeral is too long. -/
theorem exists_covered (cursor : Cursor) (h : ¬ HasLongNumeral cursor.ahead) :
    ∃ tiles last, Covered cursor tiles last ∧ last.ahead.dropWhile isBlank = [] := by
  induction hlength : cursor.ahead.length using Nat.strongRecOn generalizing cursor with
  | ind length ih =>
    cases htext : cursor.ahead.dropWhile isBlank with
    | nil => exact ⟨[], cursor, .none cursor, htext⟩
    | cons first rest =>
      have hnext := next_of_cons htext
      have hahead : first :: rest <:+ cursor.ahead := htext ▸ List.dropWhile_suffix isBlank
      rcases htoken : (scan cursor.mode first rest).token with fault | token
      · obtain ⟨_, hlong⟩ := tooLong_of_scan htoken
        exact h.elim <| hlong.of_infix hahead.isInfix
      · rw [htoken] at hnext
        have hne : token ≠ .endOfInput := by
          rintro rfl
          exact scan_token_ne_endOfInput (isBlank_eq_false_of_dropWhile htext) htoken
        obtain ⟨tile, _, hcovers⟩ := exists_covers hnext hne
        -- What is left of the text is shorter, and has no numeral that is too long either.
        have hrest : cursor.next.2.ahead <:+ cursor.ahead := by
          rw [hnext]
          exact ⟨_, hcovers.ahead.symm⟩
        have hshorter : cursor.next.2.ahead.length < length := by
          rw [← hlength]
          refine next_ahead_length_lt cursor ?_
          change cursor.ahead.dropWhile isBlank ≠ []
          rw [htext]
          exact List.cons_ne_nil first rest
        have hleft : ¬ HasLongNumeral cursor.next.2.ahead :=
          fun hlong => h <| hlong.of_infix hrest.isInfix
        obtain ⟨tiles, last, hcovered, hend⟩ := ih _ hshorter cursor.next.2 hleft rfl
        rw [hnext] at hcovered
        exact ⟨tile :: tiles, last, .next hcovers hcovered, hend⟩

end Cursor

/-- A text without a numeral that is too long is tiled by its tokens. Each tile is what the cursor
takes next, so taking tokens ends, behind the last character, and there the end is taken again and
again. -/
theorem lex_tiles (mode : Mode) {text : List Char} (h : ¬ HasLongNumeral text) :
    ∃ tiles last, Cursor.Covered (.ofText mode text) tiles last ∧
      text = tiles.flatMap Tile.text ++ last.ahead ∧ (∀ c ∈ last.ahead, isBlank c) ∧
      tiles.length ≤ text.length ∧ tiles.IsChain Tile.Borders ∧
      lex mode text = .ok (tiles.map Tile.token ++ [.endOfInput]) ∧
      (Cursor.ofText mode text).rest =
        (.ok (tiles.map Tile.token ++ [.endOfInput]), ⟨mode, text.length, []⟩) ∧
      last.next = (.ok .endOfInput, ⟨mode, text.length, []⟩) ∧
      Cursor.next ⟨mode, text.length, []⟩ = (.ok .endOfInput, ⟨mode, text.length, []⟩) := by
  obtain ⟨tiles, last, hcovered, hend⟩ := Cursor.exists_covered (.ofText mode text) h
  have htext : text = tiles.flatMap Tile.text ++ last.ahead := hcovered.ahead_eq
  have hblank : ∀ c ∈ last.ahead, isBlank c := List.dropWhile_eq_nil_iff.mp hend
  have hlast : last.skipBlanks = ⟨mode, text.length, []⟩ := by
    have hposition := hcovered.position_eq
    have hmode : last.mode = mode := hcovered.mode_eq
    have htake : last.ahead.takeWhile isBlank = last.ahead := List.takeWhile_eq_self_iff.mpr hblank
    rw [Cursor.skipBlanks, Cursor.takeWhile, Cursor.moved, hend, htake, hposition, hmode]
    rw [htext, List.length_append]
    simp [Cursor.ofText]
  refine ⟨tiles, last, hcovered, htext, hblank, ?_, hcovered.isChain, ?_, ?_, ?_, rfl⟩
  · calc tiles.length ≤ (tiles.flatMap Tile.text).length := hcovered.length_le
      _ ≤ text.length := by rw [htext, List.length_append]; exact Nat.le_add_right _ _
  · rw [lex_eq_ok_iff]
    refine ⟨_, rfl, ?_⟩
    have hlexemes := hcovered.map_token_lexemes
    rw [show last.lexemes = [] from lexemes_of_blank hend, List.map_nil, List.append_nil]
      at hlexemes
    exact hlexemes
  · rw [hcovered.rest_eq (congrArg Cursor.ahead hlast), hlast]
  · rw [Cursor.next_of_blank hend, hlast]

/-- Tokens that no blank parts: `12` is no number since `x` follows it, and U+0000 is a character
like any other. -/
theorem lex_tiles_unparted :
    let text := " '(a 007)#\\) 12x\x00 ".toList
    ¬ HasLongNumeral text ∧
      ∃ tiles last, Cursor.Covered (.ofText .structural text) tiles last ∧
        text = tiles.flatMap Tile.text ++ last.ahead ∧ (∀ c ∈ last.ahead, isBlank c) ∧
        tiles.map Tile.token =
          [.quoteMark, .openParen, .atom "a", .literal (.integer 7), .closeParen,
            .literal (.character ")"), .unknown, .atom "x\x00"] := by
  intro text
  have hshort : ¬ HasLongNumeral text := not_hasLongNumeral (by decide)
  have htokens : lex .structural text =
      .ok ([.quoteMark, .openParen, .atom "a", .literal (.integer 7), .closeParen,
        .literal (.character ")"), .unknown, .atom "x\x00"] ++ [.endOfInput]) := by
    with_unfolding_all rfl
  obtain ⟨tiles, last, hcovered, htext, hblank, _, _, hlex, _⟩ := lex_tiles .structural hshort
  refine ⟨hshort, tiles, last, hcovered, htext, hblank, ?_⟩
  rw [htokens] at hlex
  exact (List.append_cancel_right (Except.ok.inj hlex)).symm

end SmallScheme
