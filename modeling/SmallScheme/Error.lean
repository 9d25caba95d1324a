import SmallScheme.Numeral
import SmallScheme.Token

/-!
# Errors

What a program can do wrong, by cause. `Error.message` is the one place where an error is worded,
and `Error.kind` sorts the causes into the classes that a session reports.
-/

namespace SmallScheme

/-- What was being done when data turned out to be nested too deeply. -/
inductive Activity where
  | reading
  | evaluating
  | printing
  deriving DecidableEq, Repr

/-- Something a program, or the use of an environment or a builder, does wrong. -/
inductive Error where
  /-- The reader met a piece of text that is no token; it ends at the position. -/
  | unknownToken (position : Nat)
  | unclosedList
  | nothingQuoted
  | unexpectedClose
  | unexpectedEnd
  | floatLiteral (value : Double)
  | characterLiteral (text : String)
  | unboundSymbol (name : String)
  | unknownProcedure (name : Name)
  | callArity (name : Option Name) (expected given : Nat)
  | quoteArity
  | ifArity
  | defineArity
  | defineWithoutTarget
  | minusArity
  | consArity (given : Nat)
  | notApplicable (head : Datum) (operands : List Datum)
  | notProcedure (value : Datum)
  | notEvaluable (expression : Datum)
  /-- An operand of arithmetic is no integer. -/
  | operand (operator : Name) (value : Datum)
  | emptyList (operator : Name)
  | notList (operator : Name) (value : Datum)
  | notSingle (operator : Name) (given : Nat)
  | consOnto (value : Datum)
  | notComparable (value : Datum)
  | parameter (value : Datum) (procedure : Name)
  | notDefinable (target : Datum)
  | emptyBody (name : Option Name)
  | noAlternative
  /-- The exact result of a step of arithmetic does not fit into sixty-four bits. -/
  | overflow (result : Int)
  | rootFrame
  | notSymbol (name : Datum)
  /-- Functions were opened more often than left, or less often. -/
  | unbalanced (excess : Int)
  /-- Something other than a literal was to be stored; it is known by its description. -/
  | notConstant (description : String)
  /-- A float was stored under a label, but no code returns it. -/
  | floatCode (value : String) (label : String)
  | booleanCode
  | characterCode
  | tooDeep (activity : Activity)
  deriving Inhabited

namespace Error

/-- The classes of errors. -/
inductive Kind where
  | lexical
  | syntactic
  | unsupportedLiteral
  | unboundName
  | arity
  | type
  | unspecifiedValue
  | overflow
  | environment
  | assembly
  | depth
  deriving DecidableEq, Repr

/-- The name a class is reported by. -/
def Kind.label : Kind → String
  | .lexical => "SchemeLexError"
  | .syntactic => "SchemeParseError"
  | .unsupportedLiteral => "SchemeUnsupportedLiteral"
  | .unboundName => "SchemeUnboundName"
  | .arity => "SchemeArityError"
  | .type => "SchemeTypeError"
  | .unspecifiedValue => "SchemeUnspecifiedReturn"
  | .overflow => "SchemeOverflowError"
  | .environment => "SchemeEnvironmentError"
  | .assembly => "SchemeAssemblyError"
  | .depth => "SchemeRecursionError"

/-- The class of an error. -/
def kind : Error → Kind
  | .unknownToken _ => .lexical
  | .unclosedList | .nothingQuoted | .unexpectedClose | .unexpectedEnd => .syntactic
  | .floatLiteral _ | .characterLiteral _ | .floatCode .. | .booleanCode | .characterCode =>
    .unsupportedLiteral
  | .unboundSymbol _ | .unknownProcedure _ => .unboundName
  | .callArity .. | .quoteArity | .ifArity | .defineArity | .defineWithoutTarget | .minusArity
  | .consArity _ => .arity
  | .notApplicable .. | .notProcedure _ | .notEvaluable _ | .operand .. | .emptyList _
  | .notList .. | .notSingle .. | .consOnto _ | .notComparable _ | .parameter ..
  | .notDefinable _ => .type
  | .emptyBody _ | .noAlternative => .unspecifiedValue
  | .overflow _ => .overflow
  | .rootFrame | .notSymbol _ => .environment
  | .unbalanced _ | .notConstant _ => .assembly
  | .tooDeep _ => .depth

/-- The name of a procedure in a message. -/
def procedureName (name : Option Name) : String :=
  name.getD "function"

/-- What an error says. -/
def message : Error → String
  | .unknownToken position => "Unknown token at position " ++ toString position
  | .unclosedList => "Unmatched '('"
  | .nothingQuoted => "Expected an expression after quote"
  | .unexpectedClose => "Unexpected ')'"
  | .unexpectedEnd => "Unexpected end of input"
  | .floatLiteral value => "Float literal " ++ value.text ++ " is not supported yet"
  | .characterLiteral text => "Character literal #\\" ++ text ++ " is not supported yet"
  | .unboundSymbol name => "Cannot lookup unbound symbol " ++ name
  | .unknownProcedure name => "Unknown procedure " ++ name
  | .callArity name expected given =>
    procedureName name ++ " expects " ++ toString expected ++ " arguments, got " ++ toString given
  | .quoteArity => "quote requires exactly 1 argument"
  | .ifArity => "if requires a condition, a consequent and an optional alternative"
  | .defineArity => "define requires exactly 2 arguments"
  | .defineWithoutTarget => "define requires a target"
  | .minusArity => "- requires at least 1 argument"
  | .consArity given => "cons requires exactly 2 arguments, got " ++ toString given
  | .notApplicable head operands =>
    head.describe ++ " is not applicable to " ++ (Datum.list operands).describe
  | .notProcedure value => "Cannot apply non-function " ++ value.describe
  | .notEvaluable expression => "Cannot evaluate " ++ expression.describe
  | .operand operator value => "Cannot apply " ++ operator ++ " to " ++ value.describe
  | .emptyList operator => "Cannot take " ++ operator ++ " of empty list"
  | .notList operator value => "Cannot take " ++ operator ++ " of non-list " ++ value.describe
  | .notSingle operator given =>
    operator ++ " expects a single list, got " ++ toString given ++ " arguments"
  | .consOnto value => "Cannot cons onto non-list " ++ value.describe
  | .notComparable value => "Cannot compare non-integer " ++ value.describe
  | .parameter value procedure =>
    "Parameter " ++ value.describe ++ " of " ++ procedure ++ " is not a symbol"
  | .notDefinable target => "Cannot define " ++ target.describe
  | .emptyBody name => procedureName name ++ " has an empty body"
  | .noAlternative => "if without an alternative has no value when its condition is false"
  | .overflow result => "Integer overflow: " ++ toString result
  | .rootFrame => "Cannot pop the root frame"
  | .notSymbol name => "Cannot bind " ++ name.describe ++ ": not a symbol"
  | .unbalanced excess =>
    "Unbalanced functions (nest count " ++ toString excess
      ++ "): every new_function needs a matching return_instr before build"
  | .notConstant description => "Cannot store " ++ description ++ " as data"
  | .floatCode value label =>
    "Code generation for float literal " ++ value ++ " (" ++ label ++ ") is not supported yet"
  | .booleanCode => "Code generation for boolean literals is not supported yet"
  | .characterCode => "Code generation for char literals is not supported yet"
  | .tooDeep .reading => "Expression nested too deeply to read"
  | .tooDeep .evaluating => "Maximum recursion depth exceeded"
  | .tooDeep .printing => "Value nested too deeply to print"

/-- The data that the message of an error describes. -/
def described : Error → List Datum
  | .notApplicable head operands => [head, .list operands]
  | .notProcedure value | .notEvaluable value | .operand _ value | .notList _ value
  | .consOnto value | .notComparable value | .parameter value _ | .notDefinable value
  | .notSymbol value => [value]
  | .overflow result => [.integer result]
  | _ => []

end Error

/-- What stops an operation. -/
inductive Fault where
  /-- An error of the program. A session reports it and goes on. -/
  | reported (error : Error)
  /-- A numeral of so many digits is too long to be converted. -/
  | numeralTooLong (digits : Nat)
  /-- A number has too many digits to be written. -/
  | numberTooLong
  /-- A character constant does not hold one character but a text of another length. -/
  | notOneCharacter (length : Nat)
  /-- A float constant is not given. -/
  | noFloat
  /-- A boolean constant is not given. -/
  | noBoolean
  /-- A character constant is not given. -/
  | noCharacter
  /-- There is no register of the given name. -/
  | unknownRegister (name : String)
  /-- Data are nested too deeply, outside of any activity that an error could name. -/
  | exhausted
  deriving Inhabited

/-- What a fault says. -/
def Fault.message : Fault → String
  | .reported error => error.message
  | .numeralTooLong digits =>
    tooManyDigits ++ ": value has " ++ toString digits ++ " digits" ++ remedy
  | .numberTooLong => tooManyDigits ++ remedy
  | .notOneCharacter length =>
    "ord() expected a character, but string of length " ++ toString length ++ " found"
  | .noFloat => "required argument is not a float"
  | .noBoolean =>
    "int() argument must be a string, a bytes-like object or a real number, not 'NoneType'"
  | .noCharacter => "ord() expected string of length 1, but NoneType found"
  | .unknownRegister name => Text.quote name ++ " is not a valid Register"
  | .exhausted => "maximum recursion depth exceeded"
where
  tooManyDigits : String :=
    "Exceeds the limit (" ++ toString Numeral.longest ++ " digits) for integer string conversion"
  remedy : String := "; use sys.set_int_max_str_digits() to increase the limit"

/-- A text, unless something keeps it from being written. -/
def textUnless (obstacle : Option Fault) (text : String) : Except Fault String :=
  match obstacle with
  | none => .ok text
  | some fault => .error fault

theorem textUnless_eq_ok_iff {obstacle : Option Fault} {text written : String} :
    textUnless obstacle text = .ok written ↔ obstacle = none ∧ written = text := by
  cases obstacle <;> simp [textUnless, eq_comm]

theorem textUnless_eq_error_iff {obstacle : Option Fault} {text : String} {fault : Fault} :
    textUnless obstacle text = .error fault ↔ obstacle = some fault := by
  cases obstacle <;> simp [textUnless]

namespace Numeral

/-- What keeps a number from being written: too many digits. -/
def obstacle? (value : Int) : Option Fault :=
  if isTooLong value then some .numberTooLong else none

/-- A number in decimal. -/
def decimal (value : Int) : Except Fault String :=
  textUnless (obstacle? value) (toString value)

theorem obstacle?_eq_none_iff {value : Int} :
    obstacle? value = none ↔ isTooLong value = false := by
  simp [obstacle?]

theorem obstacle?_eq_some_iff {value : Int} {fault : Fault} :
    obstacle? value = some fault ↔ isTooLong value = true ∧ fault = .numberTooLong := by
  unfold obstacle?
  split
  · next hlong =>
    exact ⟨fun h => ⟨hlong, (Option.some.inj h).symm⟩, fun h => congrArg some h.2.symm⟩
  · next hshort =>
    exact ⟨fun h => absurd h (Option.some_ne_none fault).symm, fun h => absurd h.1 hshort⟩

theorem decimal_eq_ok_iff {value : Int} {text : String} :
    decimal value = .ok text ↔ isTooLong value = false ∧ text = toString value := by
  rw [decimal, textUnless_eq_ok_iff, obstacle?_eq_none_iff]

/-- A number can be written just if it is not too long. -/
theorem exists_decimal_iff {value : Int} :
    (∃ text, decimal value = .ok text) ↔ isTooLong value = false := by
  simp only [decimal_eq_ok_iff, exists_and_left, exists_eq, and_true]

theorem decimal_eq_error_iff {value : Int} {fault : Fault} :
    decimal value = .error fault ↔ isTooLong value = true ∧ fault = .numberTooLong := by
  rw [decimal, textUnless_eq_error_iff, obstacle?_eq_some_iff]

end Numeral

end SmallScheme
