/-!
# Log entries

What the program tells about its work besides its results. An entry is written if it is at least as
severe as the settings ask for.
-/

namespace SmallScheme.Log

/-- How severe an entry is. -/
inductive Level where
  | notSet
  | debug
  | info
  | warning
  | error
  | critical
  deriving DecidableEq, Repr

/-- Severity as a number. -/
def Level.rank : Level → Nat
  | .notSet => 0
  | .debug => 10
  | .info => 20
  | .warning => 30
  | .error => 40
  | .critical => 50

/-- The name of a level in written entries. -/
def Level.label : Level → String
  | .notSet => "NOTSET"
  | .debug => "DEBUG"
  | .info => "INFO"
  | .warning => "WARNING"
  | .error => "ERROR"
  | .critical => "CRITICAL"

/-- The parts of the program that write entries. -/
inductive Origin where
  | interpreter
  | session
  | commandLine
  | codeGenerator
  | pipeline
  deriving DecidableEq, Repr

/-- The name of a part in written entries. -/
def Origin.label : Origin → String
  | .interpreter => "scheme.interpreter"
  | .session => "scheme.repl"
  | .commandLine => "scheme.cli"
  | .codeGenerator => "scheme.compiler.code_generator"
  | .pipeline => "scheme.compiler.pipeline"

/-- Something to be told. -/
structure Entry where
  level : Level
  origin : Origin
  message : String
  deriving DecidableEq, Repr

/-- An entry as a line. -/
def Entry.line (entry : Entry) : String :=
  entry.level.label ++ " " ++ entry.origin.label ++ ": " ++ entry.message ++ "\n"

/-- The lines of the entries that are severe enough. -/
def write (threshold : Level) (entries : List Entry) : String :=
  String.join ((entries.filter fun entry => threshold.rank ≤ entry.level.rank).map Entry.line)

end SmallScheme.Log
