import SmallScheme.Datum.Basic

/-!
# Loose equality

Outside of programs data are compared by the numbers they stand for: the booleans count as one and
zero, and a float equals an integer of the same value. Procedures are equal if their parameters and
bodies are, whatever their names.
-/

namespace SmallScheme.Datum

/-- A datum as a number. -/
def number? : Datum → Option (Int ⊕ Double)
  | .boolean value => some (.inl (if value then 1 else 0))
  | .integer value => some (.inl value)
  | .foreign (.float value) => some (.inr value)
  | _ => none

/-- Whether two numbers are equal. -/
def numbersEqual : Int ⊕ Double → Int ⊕ Double → Bool
  | .inl a, .inl b => a == b
  | .inl a, .inr b => b.equalsInt a
  | .inr a, .inl b => a.equalsInt b
  | .inr a, .inr b => a.equals b

/-- Whether two atoms are equal. -/
def atomsEqual : Datum → Datum → Bool
  | .symbol a, .symbol b => a == b
  | .foreign .null, .foreign .null => true
  | .foreign (.text a), .foreign (.text b) => a == b
  | a, b =>
    match a.number?, b.number? with
    | some m, some n => numbersEqual m n
    | _, _ => false

mutual

/-- Whether two data are loosely equal. -/
def equals : Datum → Datum → Bool
  | .list items, .list others => allEqual items others
  | .procedure _ parameters body, .procedure _ otherParameters otherBody =>
    parameters == otherParameters && allEqual body otherBody
  | a, b => atomsEqual a b

/-- Whether two rows of data are loosely equal one by one. -/
def allEqual : List Datum → List Datum → Bool
  | [], [] => true
  | item :: items, other :: others => item.equals other && allEqual items others
  | _, _ => false

end

/-- Whether two data share their hash, where both have one: a symbol's is given by its name and a
procedure's by its parameters. -/
def sameHash? : Datum → Datum → Option Bool
  | .symbol a, .symbol b => some (a == b)
  | .procedure _ parameters _, .procedure _ others _ => some (parameters == others)
  | .symbol _, .procedure .. | .procedure .., .symbol _ => some false
  | _, _ => none

end SmallScheme.Datum
