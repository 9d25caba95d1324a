import SmallScheme.Datum.Basic
import SmallScheme.Double.Text
import SmallScheme.Text.Quoted

/-!
# Data as text

A datum has two texts. `Datum.print` is the program text of a value: what reading it again gives
back, for all data that reading can produce. `Datum.describe` is how messages show a value: unlike
program text it tells a symbol from a text and shows what a procedure consists of.
-/

namespace SmallScheme

/-- The description of a foreign value. -/
def Foreign.describe : Foreign → String
  | .null => "None"
  | .float value => value.text
  | .text value => Text.quote value

/-- The description of a boolean. -/
def describeBoolean (value : Bool) : String :=
  if value then "True" else "False"

namespace Datum

mutual

/-- The program text of a datum. A quotation is abbreviated. -/
def print : Datum → String
  | .boolean true => "#t"
  | .boolean false => "#f"
  | .integer value => toString value
  | .symbol name => name
  | .list [.symbol "quote", datum] => "'" ++ datum.print
  | .list items => "(" ++ printAll items ++ ")"
  | .procedure none _ _ => "#<procedure>"
  | .procedure (some name) _ _ => "#<procedure " ++ name ++ ">"
  | .foreign value => value.describe

/-- The program texts of some data, with a space between every two. -/
def printAll : List Datum → String
  | [] => ""
  | [item] => item.print
  | item :: items => item.print ++ " " ++ printAll items

end

/-- A procedure as the expression it consists of: parameters and body. -/
def lambdaText (parameters : List Name) (body : List Datum) : String :=
  "(lambda (" ++ " ".intercalate parameters ++ ")"
    ++ String.join (body.map fun expression => " " ++ expression.print) ++ ")"

mutual

/-- How messages show a datum. -/
def describe : Datum → String
  | .boolean value => describeBoolean value
  | .integer value => toString value
  | .symbol name => "Symbol(" ++ Text.quote name ++ ")"
  | .list items => "[" ++ describeAll items ++ "]"
  | .procedure none parameters body => "<Function " ++ lambdaText parameters body ++ ">"
  | .procedure (some name) parameters body =>
    "<Function " ++ name ++ " " ++ lambdaText parameters body ++ ">"
  | .foreign value => value.describe

/-- The descriptions of some data, with a comma between every two. -/
def describeAll : List Datum → String
  | [] => ""
  | [item] => item.describe
  | item :: items => item.describe ++ ", " ++ describeAll items

end

/-- The plain text of a datum: symbols and texts without marks, a procedure as the expression it
consists of, and the description of everything else. -/
def plain : Datum → String
  | .symbol name => name
  | .foreign (.text value) => value
  | .procedure _ parameters body => lambdaText parameters body
  | datum => datum.describe

end Datum

end SmallScheme
