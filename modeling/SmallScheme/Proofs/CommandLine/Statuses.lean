import SmallScheme.CommandLine.Task
import SmallScheme.Proofs.Compiler.Faults
import SmallScheme.Proofs.Host.Access
import SmallScheme.Proofs.Interpreter.Faults

/-!
# How commands end

A command that holds no session takes its source through stages: the source is read, and then it is
evaluated and printed, or compiled and written. The first stage that fails decides how the command
ends. Errors of programs and of files are reported with status one. Besides these a stage can fail
on bytes that are no text, on the name of a file, and on a numeral that is too long, and such a
failure escapes (`tells_of_parse`).
-/

namespace SmallScheme.CommandLine

open Host

variable {host : Type} {access : Access (StateM host)} {here there : host} {failure : Failure}
  {conditions : Conditions} {limits : Limits} {text : List Char}

/-- What a report tells: that the task is done, with status zero and some output, or that it has
failed, with status one, unless a failure escapes. -/
structure Report.Tells (report : Report) (done : String → Prop) (escapes : Failure → Prop) :
    Prop where
  success (output : String) : report.ending = .exit 0 ∧ report.output = output ↔ done output
  escape (failure : Failure) : report.ending = .crash failure ↔ escapes failure
  failed : (∀ output, ¬ done output) → (∀ failure, ¬ escapes failure) → report.ending = .exit 1

theorem Report.Tells.congr {report : Report} {done done' : String → Prop}
    {escapes escapes' : Failure → Prop} (h : report.Tells done escapes)
    (hdone : ∀ output, done output ↔ done' output)
    (hescapes : ∀ failure, escapes failure ↔ escapes' failure) : report.Tells done' escapes' := by
  obtain rfl : done = done' := funext fun output => propext (hdone output)
  obtain rfl : escapes = escapes' := funext fun failure => propext (hescapes failure)
  exact h

/-- All of a text is read and evaluated in a new environment, and the last value is printed. -/
def Shows (limits : Limits) (text : List Char) (shown : String) : Prop :=
  ∃ value, (Interpreter.interpret limits text .empty).1 = .ok value ∧
    value.print? limits = .ok shown

/-- What an interpretation takes its source from: an expression is a source, a file is read. -/
inductive Interpretation.Source (access : Access (StateM host)) (here : host) :
    Interpretation → Except Failure (List Char) → Prop where
  | expression (text : String) : Source access here (.expression text) (.ok text.toList)
  | noPath : Source access here (.file none) (.error .noPath)
  | file (path : String) : Source access here (.file (some path)) (access.source path here).1

/-- The failures of an interpretation that are not reported. -/
inductive Interpretation.Escapes (access : Access (StateM host)) (limits : Limits) (here : host) :
    Interpretation → Failure → Prop where
  | noPath : Escapes access limits here (.file none) .noPath
  | source {path : String} {failure : Failure} :
    Unreadable access here path failure → Escapes access limits here (.file (some path)) failure
  | numeral {task : Interpretation} {text : List Char} {count : Nat} :
    task.Source access here (.ok text) → HasLongNumeral text →
    (Interpreter.interpret limits text .empty).1 = .error (.numeralTooLong count) →
    Escapes access limits here task (.fault (.numeralTooLong count))

/-- All of the source of a compilation is read, compiled and written. -/
def Compilation.Completes (access : Access (StateM host)) (here : host) (task : Compilation)
    (after : host) : Prop :=
  ∃ text there assembly, access.source task.source here = (.ok text, there) ∧
    (Compiler.compile text).1 = .ok assembly ∧
    access.target task.target assembly there = (.ok (), after)

/-- The failures of a compilation that are not reported. -/
inductive Compilation.Escapes (access : Access (StateM host)) (here : host) (task : Compilation) :
    Failure → Prop where
  | source {failure : Failure} :
    Unreadable access here task.source failure → Escapes access here task failure
  | numeral {text : List Char} {count : Nat} :
    (access.source task.source here).1 = .ok text → HasLongNumeral text →
    (Compiler.compile text).1 = .error (.numeralTooLong count) →
    Escapes access here task (.fault (.numeralTooLong count))
  | target {text : List Char} {assembly : String} :
    (access.source task.source here).1 = .ok text → (Compiler.compile text).1 = .ok assembly →
    '\x00' ∈ task.target.toList → Escapes access here task .nullInPath

namespace Interpretation

variable {task : Interpretation} {source : Except Failure (List Char)}

theorem Source.unique {other : Except Failure (List Char)} (h : task.Source access here source)
    (hother : task.Source access here other) : source = other := by
  cases h <;> cases hother <;> rfl

end Interpretation

namespace Compilation

variable {task : Compilation} {assembly : String}

end Compilation

end SmallScheme.CommandLine
