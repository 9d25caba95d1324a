import SmallScheme.Interpreter
import SmallScheme.Text.Line

/-!
# Interactive sessions

A session reads a line, prints the value of each expression on it, and reports what goes wrong in
one line. The rest of a faulty line is given up, but not the session.
-/

namespace SmallScheme.Repl

/-- What a session asks with, unless told otherwise. -/
def prompt : String :=
  "scheme> "

/-- How an error is reported. -/
def report (error : Error) : String :=
  "error: " ++ error.kind.label ++ ": " ++ error.message ++ "\n"

/-- What a session has done. -/
structure Transcript where
  output : String
  log : List Log.Entry
  /-- A fault that ended the session. -/
  fault : Option Fault
  environment : Environment

/-- Answers one line. -/
def answer (limits : Limits) (line : List Char) (env : Environment) : Transcript :=
  let run := Interpreter.runProgram limits (·.print? limits) (Program.ofText limits line) env
  let printed := String.join (run.results.map (· ++ "\n"))
  let log := Interpreter.logOf run
  match run.fault with
  | none => ⟨printed, log, none, run.environment⟩
  | some (.reported error) =>
    ⟨printed ++ report error, log ++ [⟨.debug, .session, "evaluation failed"⟩], none,
      run.environment⟩
  | some fault => ⟨printed, log, some fault, run.environment⟩

/-- A session over some lines. -/
def session (limits : Limits) (prompt : String) : List (List Char) → Environment → Transcript
  | [], env => ⟨prompt ++ "\n", [], none, env⟩
  | line :: lines, env =>
    let here := answer limits line env
    match here.fault with
    | some _ => { here with output := prompt ++ here.output }
    | none =>
      let later := session limits prompt lines here.environment
      { later with
        output := prompt ++ here.output ++ later.output
        log := here.log ++ later.log }

/-- A session over the lines of a text. -/
def sessionOver (limits : Limits) (prompt : String) (input : String) (env : Environment) :
    Transcript :=
  session limits prompt (Text.lines input.toList) env

end SmallScheme.Repl
