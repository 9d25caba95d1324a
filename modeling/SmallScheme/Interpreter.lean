import SmallScheme.Evaluation
import SmallScheme.Log
import SmallScheme.Reader

/-!
# Running programs

A program is run expression by expression in an environment that outlives it. What happens to
later expressions never changes what earlier ones have done.
-/

namespace SmallScheme

namespace Interpreter

/-- The fault of evaluating data that are nested too deeply. -/
def tooDeep : Fault :=
  .reported (.tooDeep .evaluating)

/-- What a fault becomes outside of evaluation. An error that cannot be worded within the limits
gives way to what keeps it from being worded. -/
def settle (limits : Limits) : Fault → Fault
  | .exhausted => tooDeep
  | .reported error =>
    match error.fault limits with
    | .exhausted => tooDeep
    | fault => fault
  | fault => fault

/-- Evaluates one expression. -/
def evaluate (limits : Limits) (expression : Datum) (env : Environment) :
    Except Fault Datum × Environment :=
  let (outcome, after) := Evaluation.within limits.evaluating expression env
  (outcome.mapError (settle limits), after)

end Interpreter

/-- What became of a row of expressions. -/
structure Run (α : Type) where
  /-- The expressions whose evaluation was begun. -/
  begun : List Datum
  /-- What was made of the values. -/
  results : List α
  /-- What stopped the run, if it did not come to its end. -/
  fault : Option Fault
  environment : Environment

namespace Interpreter

/-- Evaluates expressions one by one and puts each value to use before the next is evaluated. The
run ends with the first fault, or with the given one behind the last expression. -/
def run {α : Type} (limits : Limits) (use : Datum → Except Fault α) (last : Option Fault) :
    List Datum → Environment → Run α
  | [], env => ⟨[], [], last, env⟩
  | expression :: rest, env =>
    let (outcome, after) := evaluate limits expression env
    match outcome.bind use with
    | .error fault => ⟨[expression], [], some fault, after⟩
    | .ok result =>
      let later := run limits use last rest after
      { later with begun := expression :: later.begun, results := result :: later.results }

/-- Runs a program. -/
def runProgram {α : Type} (limits : Limits) (use : Datum → Except Fault α) (program : Program)
    (env : Environment) : Run α :=
  run limits use program.fault program.expressions env

/-- Evaluates all expressions of a text. -/
def evaluateAll (limits : Limits) (text : List Char) (env : Environment) : Run Datum :=
  runProgram limits .ok (Program.ofText limits text) env

/-- The log entries of a run: one for each expression that was begun. -/
def logOf {α : Type} (result : Run α) : List Log.Entry :=
  result.begun.map fun expression =>
    ⟨.debug, .interpreter, "evaluating " ++ expression.describe⟩

/-- The outcome of a run as a whole: the last value, or the empty list if there is none. -/
def outcome (result : Run Datum) : Except Fault Datum :=
  match result.fault with
  | some fault => .error fault
  | none => .ok (result.results.getLastD (.list []))

/-- Interprets a text as a whole. -/
def interpret (limits : Limits) (text : List Char) (env : Environment) :
    Except Fault Datum × Environment :=
  let result := evaluateAll limits text env
  (outcome result, result.environment)

end Interpreter

end SmallScheme
