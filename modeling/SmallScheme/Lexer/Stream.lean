import SmallScheme.Lexer.Cursor

/-!
# Token streams

A text as the row of its tokens. Each lexeme keeps the piece it was cut from and the position
behind it, so a stream always knows how far its consumer has come.
-/

namespace SmallScheme

/-- A token in a text. -/
structure Lexeme where
  token : Except Fault Token
  spelling : List Char
  /-- The position behind the token. -/
  stop : Nat

private theorem rest_length_lt (mode : Mode) {text rest : List Char} {first : Char}
    (htext : text.dropWhile Text.isBlank = first :: rest) :
    (scan mode first rest).rest.length < text.length := by
  have hrest := scan_rest_length_le mode first rest
  have hdrop := (List.dropWhile_suffix (l := text) Text.isBlank).length_le
  rw [htext, List.length_cons] at hdrop
  omega

/-- The tokens of a text that begins at a position, without the one at its end. -/
def lexemes (mode : Mode) (position : Nat) (text : List Char) : List Lexeme :=
  match htext : text.dropWhile Text.isBlank with
  | [] => []
  | first :: rest =>
    let result := scan mode first rest
    let stop :=
      position + (text.takeWhile Text.isBlank).length + result.spelling.length
    have : result.rest.length < text.length := rest_length_lt mode htext
    ⟨result.token, result.spelling, stop⟩ :: lexemes mode stop result.rest
termination_by text.length

/-- The tokens that a consumer has still to take, and where it stands. -/
structure TokenStream where
  pending : List Lexeme
  position : Nat
  /-- The length of the text. -/
  length : Nat

namespace TokenStream

/-- The tokens of a text. -/
def ofText (mode : Mode) (text : List Char) : TokenStream :=
  ⟨lexemes mode 0 text, 0, text.length⟩

/-- The stream when all tokens are taken. -/
def finished (stream : TokenStream) : TokenStream :=
  { stream with pending := [], position := stream.length }

/-- Takes the next token. At the end there is one more each time. -/
def next (stream : TokenStream) : Except Fault Token × TokenStream :=
  match stream.pending with
  | [] => (.ok .endOfInput, stream.finished)
  | lexeme :: rest => (lexeme.token, { stream with pending := rest, position := lexeme.stop })

/-- Whether all tokens are taken. Looking moves the position over the next token but does not take
it, unless that token is a fault. -/
def atEnd (stream : TokenStream) : Except Fault Bool × TokenStream :=
  match stream.pending with
  | [] => (.ok true, stream.finished)
  | lexeme :: rest =>
    match lexeme.token with
    | .ok _ => (.ok false, { stream with position := lexeme.stop })
    | .error fault => (.error fault, { stream with pending := rest, position := lexeme.stop })

end TokenStream

/-- Takes all tokens, up to the one at the end. -/
def Cursor.rest (cursor : Cursor) : Except Fault (List Token) × Cursor :=
  if hend : cursor.skipBlanks.ahead = [] then (.ok [.endOfInput], cursor.skipBlanks)
  else
    have : cursor.next.2.ahead.length < cursor.ahead.length := cursor.next_ahead_length_lt hend
    match cursor.next.1 with
    | .error fault => (.error fault, cursor.next.2)
    | .ok token =>
      let (tokens, last) := cursor.next.2.rest
      (tokens.map (token :: ·), last)
termination_by cursor.ahead.length

/-- All tokens of a text, up to the one at the end. -/
def lex (mode : Mode) (text : List Char) : Except Fault (List Token) :=
  ((lexemes mode 0 text).mapM Lexeme.token).map (· ++ [.endOfInput])

end SmallScheme
