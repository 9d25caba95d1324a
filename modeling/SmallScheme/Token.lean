import SmallScheme.Datum.Printer

/-!
# Tokens

The pieces that program text is cut into. Literals are set apart, since the compiler knows nothing
else.
-/

namespace SmallScheme

/-- A value written in the text itself. Scanning makes characters of one code point only. -/
inductive Literal where
  | integer (value : Int)
  | float (value : Double)
  | boolean (value : Bool)
  | character (text : String)
  deriving DecidableEq, Repr

/-- A piece of program text. -/
inductive Token where
  | openParen
  | closeParen
  | quoteMark
  | atom (name : Name)
  | literal (value : Literal)
  /-- A piece that is none of the others. -/
  | unknown
  | endOfInput
  deriving DecidableEq, Repr

namespace Literal

/-- The kinds of literals. -/
inductive Kind where
  | integer
  | float
  | boolean
  | character
  deriving DecidableEq, Repr

/-- The name of a kind in messages. -/
def Kind.label : Kind → String
  | .integer => "INT"
  | .float => "FLOAT"
  | .boolean => "BOOLEAN"
  | .character => "CHAR"

/-- The kind of a literal. -/
def kind : Literal → Kind
  | .integer _ => .integer
  | .float _ => .float
  | .boolean _ => .boolean
  | .character _ => .character

/-- The value of a literal, as plain text. -/
def plain : Literal → String
  | .integer value => toString value
  | .float value => value.text
  | .boolean value => describeBoolean value
  | .character text => text

/-- How messages show the value of a literal. -/
def describe : Literal → String
  | .character text => Text.quote text
  | literal => literal.plain

end Literal

namespace Token

/-- The kinds of tokens. -/
inductive Kind where
  | openParen
  | closeParen
  | quoteMark
  | atom
  | literal (kind : Literal.Kind)
  | unknown
  | endOfInput
  deriving DecidableEq, Repr

/-- The name of a kind in messages. -/
def Kind.label : Kind → String
  | .openParen => "LPAREN"
  | .closeParen => "RPAREN"
  | .quoteMark => "QUOTE"
  | .atom => "ATOM"
  | .literal kind => kind.label
  | .unknown => "UNKNOWN"
  | .endOfInput => "EOF"

/-- The kind of a token. -/
def kind : Token → Kind
  | .openParen => .openParen
  | .closeParen => .closeParen
  | .quoteMark => .quoteMark
  | .atom _ => .atom
  | .literal value => .literal value.kind
  | .unknown => .unknown
  | .endOfInput => .endOfInput

/-- How messages show the value of a token, if it has one. -/
def valueText? : Token → Option String
  | .openParen => some (Text.quote "(")
  | .closeParen => some (Text.quote ")")
  | .quoteMark => some (Text.quote "'")
  | .atom name => some (Text.quote name)
  | .literal value => some value.describe
  | .unknown | .endOfInput => none

/-- How messages show a kind of token together with a value. -/
def Kind.describe (kind : Kind) (value : Option String) : String :=
  match value with
  | none => "Token(" ++ kind.label ++ ")"
  | some value => "Token(" ++ kind.label ++ ", " ++ value ++ ")"

/-- How messages show a token. -/
def describe (token : Token) : String :=
  token.kind.describe token.valueText?

end Token

end SmallScheme
