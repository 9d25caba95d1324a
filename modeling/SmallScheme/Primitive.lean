import SmallScheme.Error

/-!
# Primitive procedures

The fixed set of procedures that exist without being defined. Arithmetic is exact and goes step by
step through the operands; each step has to stay within signed sixty-four bits. The operands
themselves are not limited.
-/

namespace SmallScheme

/-- A procedure that exists without being defined. Two names mean `equal`. -/
inductive Primitive where
  | add
  | multiply
  | subtract
  | car
  | cdr
  | cons
  | equal
  deriving DecidableEq, Repr

namespace Primitive

/-- The primitive of a name. -/
def ofName? : Name → Option Primitive
  | "+" => some .add
  | "*" => some .multiply
  | "-" => some .subtract
  | "car" => some .car
  | "cdr" => some .cdr
  | "cons" => some .cons
  | "=" | "eq?" => some .equal
  | _ => none

/-- The integer that a datum is. A boolean is none. -/
def integer? : Datum → Option Int
  | .integer value => some value
  | _ => none

/-- A result, which has to fit into a word. -/
def checked (result : Int) : Except Error Int :=
  if Numeral.Fits result then .ok result else .error (.overflow result)

/-- A step of arithmetic. The kind of the operand is checked before the result. -/
def step (operator : Name) (operation : Int → Int → Int) (accumulated : Int) (operand : Datum) :
    Except Error Int :=
  match integer? operand with
  | some value => checked (operation accumulated value)
  | none => .error (.operand operator operand)

/-- Arithmetic over all operands, from the left. -/
def fold (operator : Name) (operation : Int → Int → Int) (start : Int) (operands : List Datum) :
    Except Error Int :=
  operands.foldlM (step operator operation) start

/-- Subtracts all other operands from the first one. -/
def difference : List Datum → Except Error Int
  | [] => .error .minusArity
  | first :: rest =>
    match integer? first with
    | some value => fold "-" (· - ·) value rest
    | none => .error (.operand "-" first)

/-- The first member and the other members of the only operand. -/
def uncons (operator : Name) : List Datum → Except Error (Datum × List Datum)
  | [.list (first :: rest)] => .ok (first, rest)
  | [.list []] => .error (.emptyList operator)
  | [other] => .error (.notList operator other)
  | operands => .error (.notSingle operator operands.length)

/-- A list with one more member in front. -/
def prepend : List Datum → Except Error Datum
  | [head, .list tail] => .ok (.list (head :: tail))
  | [_, other] => .error (.consOnto other)
  | operands => .error (.consArity operands.length)

/-- An operand of a comparison. -/
def comparable (operand : Datum) : Except Error Int :=
  match integer? operand with
  | some value => .ok value
  | none => .error (.notComparable operand)

/-- Whether all members of a row equal their neighbours. -/
def allSame : List Int → Bool
  | a :: b :: rest => a == b && allSame (b :: rest)
  | _ => true

/-- What a primitive makes of its operands. -/
def apply (primitive : Primitive) (operands : List Datum) : Except Error Datum :=
  match primitive with
  | .add => (fold "+" (· + ·) 0 operands).map .integer
  | .multiply => (fold "*" (· * ·) 1 operands).map .integer
  | .subtract => (difference operands).map .integer
  | .car => (uncons "car" operands).map (·.1)
  | .cdr => (uncons "cdr" operands).map (.list ·.2)
  | .cons => prepend operands
  | .equal => (operands.mapM comparable).map (.boolean ∘ allSame)

end Primitive

end SmallScheme
