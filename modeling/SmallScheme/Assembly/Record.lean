import SmallScheme.Assembly.Instruction

/-!
# Data records

Constants that are stored behind the code, each under a label.
-/

namespace SmallScheme.Assembly

/-- What a record stores. -/
inductive Constant where
  | literal (value : Literal)
  /-- A literal of the kind, without its value. -/
  | unset (kind : Literal.Kind)
  deriving DecidableEq, Repr

namespace Constant

/-- The value of a constant, as plain text. -/
def plain : Constant → Except Fault String
  | .literal (.integer value) => Numeral.decimal value
  | .literal value => return value.plain
  | .unset _ => return Foreign.null.describe

/-- The directive that stores a quadword. -/
def quadword (value : String) : String :=
  ".quad   " ++ value

/-- The directive that stores a constant. A number must not be too long, and a character has to be a
text of one code point. Only an integer may be left unset. -/
def directive : Constant → Except Fault String
  | .literal (.integer value) => return quadword (← Numeral.decimal value)
  | .literal (.float value) => return quadword (hexadecimal value.bits.toNat)
  | .literal (.boolean value) => return ".byte   " ++ if value then "1" else "0"
  | .literal (.character text) =>
    match text.toList with
    | [c] => return ".long " ++ toString c.toNat
    | chars => .error (.notOneCharacter chars.length)
  | .unset .integer => return quadword Foreign.null.describe
  | .unset .float => .error .noFloat
  | .unset .boolean => .error .noBoolean
  | .unset .character => .error .noCharacter

end Constant

/-- Something offered to be stored. -/
inductive Offer where
  | constant (value : Constant)
  /-- Anything else, known by its description. -/
  | other (description : String)

/-- The constant that is offered. Nothing else can be stored. -/
def Offer.accept : Offer → Except Error Constant
  | .constant value => .ok value
  | .other description => .error (.notConstant description)

/-- A stored constant. -/
structure Record where
  label : String
  constant : Constant
  deriving DecidableEq, Repr

namespace Record

/-- The directive that stores the constant. -/
def directive (record : Record) : Except Fault String :=
  record.constant.directive

/-- Where the constant is found. -/
def address (record : Record) : Memory :=
  .labelled record.label .rip

/-- A record as text: its label, then the directive. -/
def text (record : Record) : Except Fault String := do
  return record.label ++ ":\n    " ++ (← record.directive) ++ "\n"

end Record

end SmallScheme.Assembly
