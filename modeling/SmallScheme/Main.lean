import SmallScheme.CommandLine.Task

/-!
# The program

The outer layer. It hands arguments, variables and files of the host to the commands and writes
what they report; the first argument names the command. A session is held line by line, so that
every line is answered before the next one is read.
-/

namespace SmallScheme.Host

open CommandLine

/-- The variables of the host that settings come from. -/
def readVariables : IO Settings.Variables := do
  let names := [Settings.levelName, Settings.limitName, Settings.outputName]
  let found ← names.mapM fun name => do return (← IO.getEnv name).map fun value => (name, value)
  return found.filterMap id

/-- The number of an error. The host gives some of them negated. -/
def errorNumber (code : UInt32) : Nat :=
  min code.toNat (-code).toNat

/-- The error of a number that the host gives for the file of a path. -/
def numberedError (path : Path) (code : UInt32) (meaning : String) : FileError :=
  match errorNumber code with
  | 20 => .throughFile path
  | 21 => .isDirectory path
  | 36 => .tooLong path
  | number => .other number meaning path

/-- What an error of the host means for the file of a path. -/
def fileError (path : Path) : IO.Error → FileError
  | .noFileOrDirectory .. => .missing path
  | .inappropriateType _ code meaning | .permissionDenied _ code meaning
  | .invalidArgument _ code meaning => numberedError path code meaning
  | error => .other 5 (toString error) path

/-- Access to the files of the host. -/
def access : Access IO where
  read path := do
    try return .ok (← IO.FS.readBinFile path.text).toList
    catch error => return .error (fileError path error)
  write path content := do
    try return .ok (← IO.FS.writeBinFile path.text content.toByteArray)
    catch error => return .error (fileError path error)

/-- Holds a session on top of what earlier lines have bound. -/
partial def converseFrom (env : Environment) (conditions : Conditions) : IO Report := do
  let output ← IO.getStdout
  output.putStr Repl.prompt
  output.flush
  let line ← (← IO.getStdin).getLine
  if line.isEmpty then return ⟨.exit 0, "\n", ""⟩
  let here := Repl.answer conditions.limits line.toList env
  output.putStr here.output
  IO.eprint (Log.write conditions.threshold here.log)
  match here.fault with
  | none => converseFrom here.environment conditions
  | some fault => return ⟨.crash (.fault fault), "", ""⟩

/-- Writes a report. The status is what the program ends with. -/
def write (usage : String) (report : Report) : IO UInt32 := do
  IO.print report.output
  IO.eprint report.errors
  match report.ending with
  | .exit status => return status.toUInt32
  | .usage status =>
    if status = 0 then IO.println usage else IO.eprintln usage
    return status.toUInt32
  | .crash failure =>
    IO.eprintln failure.message
    return 1

end SmallScheme.Host

open SmallScheme in
/-- Runs the command that the first argument names. -/
def main (arguments : List String) : IO UInt32 := do
  let vars ← Host.readVariables
  match arguments with
  | "interpret" :: rest =>
    let converse := Host.converseFrom .empty
    Host.write "usage: interpret [-h] [-p PATH] [expr]"
      (← CommandLine.interpret Host.access converse vars rest)
  | "compile" :: rest =>
    Host.write "usage: compile [-h] [-o OUTPUT] source"
      (← CommandLine.compile Host.access vars rest)
  | _ =>
    IO.eprintln "usage: (interpret | compile) [argument ...]"
    return 2
