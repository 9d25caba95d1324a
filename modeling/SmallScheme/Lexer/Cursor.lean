import SmallScheme.Lexer.Scan

/-!
# Cursors

A cursor stands in a text. It can be moved by single characters or by whole tokens, and it always
knows how many characters lie behind it.
-/

namespace SmallScheme

/-- A place in a text. -/
structure Cursor where
  mode : Mode
  /-- The number of characters behind the cursor. -/
  position : Nat
  /-- The text ahead. -/
  ahead : List Char

namespace Cursor

/-- The cursor at the beginning of a text. -/
def ofText (mode : Mode) (text : List Char) : Cursor :=
  ⟨mode, 0, text⟩

/-- The cursor behind a piece of the text ahead, with what is ahead of it then. -/
def moved (cursor : Cursor) (piece ahead : List Char) : Cursor :=
  { cursor with position := cursor.position + piece.length, ahead }

/-- Whether nothing is ahead. -/
def atEnd (cursor : Cursor) : Bool :=
  cursor.ahead.isEmpty

/-- The next character, or U+0000 at the end. -/
def peek (cursor : Cursor) : Char :=
  cursor.ahead.headD '\x00'

/-- Whether a literal may end at the cursor. -/
def atDelimiter (cursor : Cursor) : Bool :=
  Scan.endsHere cursor.ahead

/-- Takes the next character, if there is one. -/
def take (cursor : Cursor) : Option Char × Cursor :=
  match cursor.ahead with
  | [] => (none, cursor)
  | c :: rest => (some c, cursor.moved [c] rest)

/-- Takes the characters up to the first that fails a test. -/
def takeWhile (test : Char → Bool) (cursor : Cursor) : List Char × Cursor :=
  let piece := cursor.ahead.takeWhile test
  (piece, cursor.moved piece (cursor.ahead.dropWhile test))

/-- Moves over the blanks. -/
def skipBlanks (cursor : Cursor) : Cursor :=
  (cursor.takeWhile Text.isBlank).2

/-- Takes the next token, together with the blanks before it. -/
def next (cursor : Cursor) : Except Fault Token × Cursor :=
  let start := cursor.skipBlanks
  match start.ahead with
  | [] => (.ok .endOfInput, start)
  | first :: rest =>
    let result := scan cursor.mode first rest
    (result.token, start.moved result.spelling result.rest)

/-- Taking a token that is not the end shortens what is ahead. -/
theorem next_ahead_length_lt (cursor : Cursor) (h : cursor.skipBlanks.ahead ≠ []) :
    cursor.next.2.ahead.length < cursor.ahead.length := by
  have hskip : cursor.skipBlanks.ahead.length ≤ cursor.ahead.length :=
    (List.dropWhile_suffix _).length_le
  unfold next
  cases hstart : cursor.skipBlanks.ahead with
  | nil => exact absurd hstart h
  | cons first rest =>
    have hrest := scan_rest_length_le cursor.mode first rest
    rw [hstart, List.length_cons] at hskip
    simp only [hstart, moved]
    omega

end Cursor

end SmallScheme
