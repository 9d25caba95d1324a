import SmallScheme.Proofs.Lexer.Joining
import SmallScheme.Proofs.Printer.Writing

/-!
# Tokens written one after the other

All tokens but floats have a spelling of their own. A row of them, each with a space behind it, is
cut into the same tokens again just if a program can write every one of them
(`lex_spaced_iff_writable`). What a token is spelled with may be a blank or look like the beginning
of another token, but it never runs together with the space.
-/

namespace SmallScheme

open Scan (endsHere)
open Text (isBlank)

namespace Token

/-- The spelling of a token. Unknown pieces and the end of a text have none, and which of its many
numerals spells a float is left open. -/
def spelling : Token → List Char
  | .openParen => ['(']
  | .closeParen => [')']
  | .quoteMark => ['\'']
  | .atom name => name.toList
  | .literal (.boolean value) => ['#', if value then 't' else 'f']
  | .literal (.integer value) => (toString value).toList
  | .literal (.character text) => '#' :: '\\' :: text.toList
  | .literal (.float _) | .unknown | .endOfInput => []

/-- The kinds of the tokens that have a spelling. -/
def spelledKinds : List Kind :=
  [.openParen, .closeParen, .quoteMark, .atom, .literal .boolean, .literal .integer,
    .literal .character]

/-- Being a token that a program can write by its spelling. -/
inductive Writable : Token → Prop
  | openParen : Writable .openParen
  | closeParen : Writable .closeParen
  | quoteMark : Writable .quoteMark
  | atom {name : Name} : IsAtomName name → Writable (.atom name)
  | boolean (value : Bool) : Writable (.literal (.boolean value))
  | integer {value : Int} : 0 ≤ value → value ≤ Numeral.greatest →
      Writable (.literal (.integer value))
  | character (c : Char) : Writable (.literal (.character (String.singleton c)))

variable {token : Token} {rest : List Char}

/-- A token that can be written is spelled by its spelling in front of whatever ends a name. -/
theorem Writable.spelled (h : token.Writable) (hends : endsHere rest) :
    Spelled token.spelling token rest := by
  cases h with
  | openParen => exact .openParen rest
  | closeParen => exact .closeParen rest
  | quoteMark => exact .quoteMark rest
  | atom hname => exact .atom hname hends
  | boolean value => exact .boolean value rest
  | integer hpos hgreatest => exact Datum.spelled_toString hpos hgreatest hends
  | character c =>
    rw [spelling, String.toList_singleton]
    exact .character c hends

/-- What is spelled somewhere can be written, if it is of a kind that has a spelling. -/
theorem writable_of_spelled {piece : List Char} (h : Spelled piece token rest)
    (hkind : token.kind ∈ spelledKinds) : token.Writable := by
  cases h with
  | openParen => exact .openParen
  | closeParen => exact .closeParen
  | quoteMark => exact .quoteMark
  | atom hname _ => exact .atom hname
  | boolean value => exact .boolean value
  | integer _ _ _ hgreatest _ => exact .integer (Int.natCast_nonneg _) hgreatest
  | character c _ => exact .character c
  | float => simp [spelledKinds, kind, Literal.kind] at hkind

/-- The text of some tokens, with a space behind each. -/
def spaced (tokens : List Token) : List Char :=
  tokens.flatMap fun token => token.spelling ++ [' ']

theorem spaced_cons (token : Token) (tokens : List Token) :
    spaced (token :: tokens) = token.spelling ++ ' ' :: spaced tokens := by
  rw [spaced, List.flatMap_cons, List.append_assoc]
  rfl

end Token

/-- A piece that spells a token is the first lexeme of a text that begins with it. -/
theorem Spelled.lexemes_append {spelling rest : List Char} {token : Token}
    (h : Spelled spelling token rest) (position : Nat) :
    ∃ piece, lexemes .structural position (spelling ++ rest) =
      ⟨.ok token, piece, position + spelling.length⟩ ::
        lexemes .structural (position + spelling.length) rest := by
  cases h.writes position with
  | next hnext hnone =>
    cases hnone
    exact Cursor.lexemes_of_next hnext h.ne_endOfInput

/-- A token of a text is spelled in it. -/
theorem exists_spelled_of_mem_lexemes {mode : Mode} {position : Nat} {text : List Char}
    {lexeme : Lexeme} {token : Token} (hmem : lexeme ∈ lexemes mode position text)
    (htoken : lexeme.token = .ok token) (hknown : token ≠ .unknown) :
    ∃ spelling rest, Spelled spelling token rest := by
  obtain ⟨first, rest, hblank, _, hscan⟩ := Cursor.exists_scan_of_mem_lexemes hmem
  exact ⟨_, _, Scan.spelled_of_scan hblank (hscan.symm.trans htoken) hknown⟩

/-- Tokens that can be written are the tokens of their text, wherever it stands. -/
theorem map_token_lexemes_spaced {tokens : List Token} (h : ∀ token ∈ tokens, token.Writable)
    (position : Nat) :
    (lexemes .structural position (Token.spaced tokens)).map Lexeme.token = tokens.map .ok := by
  induction tokens generalizing position with
  | nil => rw [Token.spaced, List.flatMap_nil, lexemes_of_blank rfl, List.map_nil, List.map_nil]
  | cons token tokens ih =>
    obtain ⟨hfirst, hrest⟩ := List.forall_mem_cons.mp h
    have hspelled : Spelled token.spelling token (' ' :: Token.spaced tokens) := hfirst.spelled rfl
    have hspace : ∀ position, lexemes .structural position (' ' :: Token.spaced tokens) =
        lexemes .structural (position + 1) (Token.spaced tokens) := fun position =>
      lexemes_blanks_append .structural position (List.forall_mem_singleton.mpr rfl) _
    obtain ⟨piece, hlexemes⟩ := hspelled.lexemes_append position
    rw [Token.spaced_cons, hlexemes, hspace, List.map_cons, List.map_cons, ih hrest]

/-- Tokens of the kinds that have a spelling, written with a space behind each, are cut from the
text again, and then the text is at its end, just if a program can write all of them. -/
theorem lex_spaced_iff_writable {tokens : List Token}
    (h : ∀ token ∈ tokens, token.kind ∈ Token.spelledKinds) :
    lex .structural (Token.spaced tokens) = .ok (tokens ++ [.endOfInput]) ↔
      ∀ token ∈ tokens, token.Writable := by
  rw [lex_eq_ok_iff]
  constructor
  · rintro ⟨front, hfront, hlexemes⟩ token hmem
    obtain rfl := List.append_cancel_right hfront
    have hmap : Except.ok token ∈
        (lexemes .structural 0 (Token.spaced tokens)).map Lexeme.token :=
      hlexemes ▸ List.mem_map_of_mem hmem
    obtain ⟨lexeme, hlexeme, htoken⟩ := List.mem_map.mp hmap
    have hkind := h token hmem
    have hknown : token ≠ .unknown := by
      rintro rfl
      exact absurd hkind (by decide)
    obtain ⟨_, _, hspelled⟩ := exists_spelled_of_mem_lexemes hlexeme htoken hknown
    exact Token.writable_of_spelled hspelled hkind
  · intro hwritable
    exact ⟨tokens, rfl, map_token_lexemes_spaced hwritable 0⟩

/-- Characters that are a blank, a parenthesis and a number sign, and a name with a quotation mark
and a parenthesis in it, are cut from their text again; a name with a space in it is not. -/
theorem lex_spaced_characters :
    let tokens : List Token := [.quoteMark, .literal (.character " "), .literal (.character ")"),
      .literal (.character "#"), .atom "a('b", .literal (.integer 0)]
    Token.spaced tokens = "' #\\  #\\) #\\# a('b 0 ".toList ∧
      lex .structural (Token.spaced tokens) = .ok (tokens ++ [.endOfInput]) ∧
      lex .structural (Token.spaced [.atom "a b"]) ≠ .ok [.atom "a b", .endOfInput] := by
  intro tokens
  have hkinds : ∀ token ∈ tokens, token.kind ∈ Token.spelledKinds := by decide
  have hbroken : ∀ token ∈ [Token.atom "a b"], token.kind ∈ Token.spelledKinds := by decide
  refine ⟨rfl, (lex_spaced_iff_writable hkinds).mpr ?_, fun hlex => ?_⟩
  · have hname : IsAtomName "a('b" := isAtomName_of_all ⟨'a', rfl, by decide⟩ rfl
    simp only [tokens, List.forall_mem_cons]
    exact ⟨.quoteMark, .character ' ', .character ')', .character '#', .atom hname,
      .integer (by decide) (by decide), nofun⟩
  · cases (lex_spaced_iff_writable hbroken).mp hlex _ List.mem_cons_self with
    | atom hname => exact absurd (hname.unbroken ' ' (by decide)).1 (by decide)

end SmallScheme
