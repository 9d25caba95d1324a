import SmallScheme.Environment
import SmallScheme.Primitive

/-!
# Evaluation

What an expression means in an environment. A rule evaluates an expression with the help of a rule
for the expressions inside it, so the meaning of programs is the rule applied to itself as often as
evaluations may be active at once. A procedure is called in a frame on top of the frames of its
caller.
-/

namespace SmallScheme

/-- A computation that may bind names and may be stopped. Bindings made before it is stopped
stay. -/
abbrev Evaluation := ExceptT Fault (StateM Environment)

namespace Evaluation

/-- Stops with an error of the program. -/
def fail {α : Type} (error : Error) : Evaluation α :=
  throw (.reported error)

/-- A result that may be an error. -/
def ofExcept {α : Type} : Except Error α → Evaluation α
  | .ok value => pure value
  | .error error => fail error

/-- A computation in a frame of its own. -/
def inFrame {α : Type} (computation : Evaluation α) : Evaluation α :=
  Environment.scope Fault.reported computation

/-- Binds a name in the innermost frame. -/
def bind (name : Name) (value : Datum) : Evaluation Unit :=
  modify (·.bind name value)

/-- How expressions are evaluated. -/
abbrev Rule := Datum → Evaluation Datum

/-- A form with a rule of its own. Its name means the form whatever is bound to it. -/
inductive Form where
  | quotation
  | definition
  | conditional
  deriving DecidableEq, Repr

/-- The form that the head of a list calls for. -/
def Form.ofHead? : Datum → Option Form
  | .symbol "quote" => some .quotation
  | .symbol "define" => some .definition
  | .symbol "if" => some .conditional
  | _ => none

/-- The value of `(quote datum)`: the datum. -/
def quotation : List Datum → Evaluation Datum
  | [datum] => return datum
  | _ => fail .quoteArity

/-- The names of parameters, which have to be symbols. -/
def parameterNames (procedure : Name) (parameters : List Datum) : Except Error (List Name) :=
  parameters.mapM fun
    | .symbol name => .ok name
    | other => .error (.parameter other procedure)

/-- The value of `(define name expression)` and of `(define (name parameter ...) body ...)`: what
the name is bound to. The body of a procedure is kept unevaluated. -/
def definition (rule : Rule) : List Datum → Evaluation Datum
  | [] => fail .defineWithoutTarget
  | .symbol name :: rest =>
    match rest with
    | [expression] => do
      let value ← rule expression
      bind name value
      return value
    | _ => fail .defineArity
  | .list (.symbol name :: parameters) :: body => do
    let names ← ofExcept (parameterNames name parameters)
    let value := .procedure name names body
    bind name value
    return value
  | target :: _ => fail (.notDefinable target)

/-- Whether a condition holds. Everything does but `#f`. -/
def holds : Datum → Bool
  | .boolean false => false
  | _ => true

/-- The value of `(if condition consequent alternative)`, where the alternative may be missing. -/
def conditional (rule : Rule) : List Datum → Evaluation Datum
  | [condition, consequent] => do
    if holds (← rule condition) then rule consequent else fail .noAlternative
  | [condition, consequent, alternative] => do
    if holds (← rule condition) then rule consequent else rule alternative
  | _ => fail .ifArity

/-- The value of a form, given what stands behind its name. -/
def Form.evaluate (rule : Rule) (form : Form) (rest : List Datum) : Evaluation Datum :=
  match form with
  | .quotation => Evaluation.quotation rest
  | .definition => Evaluation.definition rule rest
  | .conditional => Evaluation.conditional rule rest

/-- The value of a call: that of the first expression of the body, with the parameters bound to the
operands. The other expressions of the body are not evaluated. -/
def call (rule : Rule) (name : Option Name) (parameters : List Name) (body operands : List Datum) :
    Evaluation Datum :=
  if operands.length ≠ parameters.length then
    fail (.callArity name parameters.length operands.length)
  else
    match body with
    | [] => fail (.emptyBody name)
    | expression :: _ =>
      inFrame do
        modify (·.bindAll parameters operands)
        rule expression

/-- The value of an application. The operator has to be named: by what is bound to the name, which
has to be a procedure, or else by a primitive. -/
def apply (rule : Rule) (head : Datum) (operands : List Datum) : Evaluation Datum :=
  match head with
  | .symbol name => do
    match (← get).lookup? name with
    | some (.procedure procedureName parameters body) =>
      call rule procedureName parameters body operands
    | some value => fail (.notProcedure value)
    | none =>
      match Primitive.ofName? name with
      | some primitive => ofExcept (primitive.apply operands)
      | none => fail (.unknownProcedure name)
  | _ => fail (.notApplicable head operands)

/-- The rule of the language, given the rule for inner expressions. The operands of an application
are evaluated from the left, before its head is looked at. -/
def step (rule : Rule) : Rule
  | .symbol name => do ofExcept ((← get).resolve name)
  | .list [] => return .list []
  | .list (head :: rest) =>
    match Form.ofHead? head with
    | some form => form.evaluate rule rest
    | none => do
      let operands ← rest.mapM rule
      apply rule head operands
  | .foreign value => fail (.notEvaluable (.foreign value))
  | datum => return datum

/-- The rule of the language with no more than `levels` evaluations active at once. -/
def within (levels : Nat) : Rule :=
  match levels with
  | 0 => fun _ => throw .exhausted
  | levels + 1 => step (within levels)

end Evaluation

end SmallScheme
