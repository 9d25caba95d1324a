import SmallScheme.CommandLine.Arguments
import SmallScheme.Compiler
import SmallScheme.Host.Failure
import SmallScheme.Repl
import SmallScheme.Settings

/-!
# Tasks

What the two commands do. Arguments and settings are turned into a task; a task is performed with
access to files and comes to a report. Everything that is written is part of the report.
-/

namespace SmallScheme.CommandLine

open Host

/-- How a command ends. -/
inductive Ending where
  | exit (status : Nat)
  /-- The command only tells how to use it. -/
  | usage (status : Nat)
  /-- A failure that is not reported ends the command. -/
  | crash (failure : Failure)

/-- What a command has done. -/
structure Report where
  ending : Ending
  output : String
  /-- Log entries and the report of a failure. -/
  errors : String

/-- The settings that hold while a task is performed. -/
structure Conditions where
  limits : Limits
  threshold : Log.Level

/-- The greatest limit that the host can keep. -/
def greatestLimit : Nat :=
  Numeral.twoTo 31 - 1

/-- The calls that are active before a task is begun. -/
def callsInUse : Nat :=
  5

/-- The settings from the variables of the host. -/
def Conditions.ofVariables (vars : Settings.Variables) : Except Failure Conditions :=
  let threshold := Settings.logLevel vars
  match Settings.recursionLimit? vars with
  | none => .ok ⟨.standard, threshold⟩
  | some calls =>
    if greatestLimit < calls then .error .limitTooGreat
    else if calls ≤ callsInUse then .error (.fault .exhausted)
    else .ok ⟨⟨calls⟩, threshold⟩

/-- What the interpreting command may be asked to do. -/
inductive Interpretation where
  | expression (text : String)
  /-- A file; its path may be missing. -/
  | file (path : Option String)
  | session
  deriving DecidableEq, Repr

/-- What the compiling command is asked to do. -/
structure Compilation where
  source : String
  target : String
  deriving DecidableEq, Repr

/-- The arguments of the interpreting command. -/
def interpreting : Interface :=
  ⟨'p', "path", false⟩

/-- The arguments of the compiling command. -/
def compiling : Interface :=
  ⟨'o', "output", true⟩

/-- The interpretation that arguments ask for. An expression wins over a file. -/
def Interpretation.ofGiven (given : Given) : Interpretation :=
  match given.positional, given.option with
  | some text, _ => .expression text
  | none, some path => .file path
  | none, none => .session

/-- The compilation that arguments ask for. Without a target the settings give one. -/
def Compilation.ofGiven (vars : Settings.Variables) (given : Given) : Compilation :=
  let target := given.option.join.getD ""
  ⟨given.positional.getD "", if target.isEmpty then Settings.output vars else target⟩

/-- The task of a command, or the report if there is nothing to do. -/
def prepare (interface : Interface) (vars : Settings.Variables) (arguments : List String) :
    Except Report (Conditions × Given) :=
  match interface.parse arguments with
  | .help => .error ⟨.usage 0, "", ""⟩
  | .misuse => .error ⟨.usage 2, "", ""⟩
  | .run given =>
    match Conditions.ofVariables vars with
    | .ok conditions => .ok (conditions, given)
    | .error failure => .error ⟨.crash failure, "", ""⟩

/-- A report from what became of a task: its output or a failure. A failed task writes no output,
and a log entry of its own if it is reported. -/
def report (conditions : Conditions) (failed : String) (log : List Log.Entry) :
    Except Failure String → Report
  | .ok output => ⟨.exit 0, output, Log.write conditions.threshold log⟩
  | .error failure =>
    match failure.reported? with
    | some message =>
      let log := log ++ [⟨.debug, .commandLine, failed⟩]
      ⟨.exit 1, "", Log.write conditions.threshold log ++ "Application error: " ++ message ++ "\n"⟩
    | none => ⟨.crash failure, "", Log.write conditions.threshold log⟩

/-- Interprets a text in a fresh environment. Its output is the last value. -/
def interpretText (limits : Limits) (text : List Char) :
    Except Failure String × List Log.Entry :=
  let run := Interpreter.evaluateAll limits text .empty
  let printed := (Interpreter.outcome run).bind (·.print? limits)
  ((printed.map (· ++ "\n")).mapError .fault, Interpreter.logOf run)

/-- How a session ends. -/
def endingOf (transcript : Repl.Transcript) : Ending :=
  match transcript.fault with
  | none => .exit 0
  | some fault => .crash (.fault fault)

/-- A session over a text, reported as a whole. -/
def sessionOver (input : String) (conditions : Conditions) : Report :=
  let transcript := Repl.sessionOver conditions.limits Repl.prompt input .empty
  ⟨endingOf transcript, transcript.output, Log.write conditions.threshold transcript.log⟩

/-- Performs an interpretation; `converse` holds a session. -/
def Interpretation.perform {m : Type → Type} [Monad m] (access : Access m)
    (converse : Conditions → m Report) (conditions : Conditions) (task : Interpretation) :
    m Report := do
  let failed := "interpretation failed"
  match task with
  | .expression text =>
    let (outcome, log) := interpretText conditions.limits text.toList
    return report conditions failed log outcome
  | .file none => return report conditions failed [] (.error .noPath)
  | .file (some path) =>
    match ← access.source path with
    | .error failure => return report conditions failed [] (.error failure)
    | .ok text =>
      let (outcome, log) := interpretText conditions.limits text
      let log := ⟨.debug, .interpreter, "interpreting " ++ path⟩ :: log
      return report conditions failed log outcome
  | .session => converse conditions

/-- Performs a compilation. Nothing is written unless all of the source is compiled. -/
def Compilation.perform {m : Type → Type} [Monad m] (access : Access m) (conditions : Conditions)
    (task : Compilation) : m Report := do
  let finish := report conditions "compilation failed"
  match ← access.source task.source with
  | .error failure => return finish [] (.error failure)
  | .ok text =>
    let (outcome, log) := Compiler.compile text
    match outcome with
    | .error fault => return finish log (.error (.fault fault))
    | .ok assembly =>
      match ← access.target task.target assembly with
      | .error failure => return finish log (.error failure)
      | .ok _ => return finish (log ++ [⟨.info, .pipeline, "wrote " ++ task.target⟩]) (.ok "")

/-- The interpreting command. -/
def interpret {m : Type → Type} [Monad m] (access : Access m) (converse : Conditions → m Report)
    (vars : Settings.Variables) (arguments : List String) : m Report :=
  match prepare interpreting vars arguments with
  | .error report => pure report
  | .ok (conditions, given) => (Interpretation.ofGiven given).perform access converse conditions

/-- The compiling command. -/
def compile {m : Type → Type} [Monad m] (access : Access m) (vars : Settings.Variables)
    (arguments : List String) : m Report :=
  match prepare compiling vars arguments with
  | .error report => pure report
  | .ok (conditions, given) => (Compilation.ofGiven vars given).perform access conditions

end SmallScheme.CommandLine
