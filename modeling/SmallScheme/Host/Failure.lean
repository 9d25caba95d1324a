import SmallScheme.Error
import SmallScheme.Host.Files
import SmallScheme.Text.Line
import SmallScheme.Text.Utf8

/-!
# Failures of whole tasks

Besides the faults of programs, a task can fail on its files and settings. Some failures are
reported and end a task in an orderly way; the others escape.
-/

namespace SmallScheme.Host

/-- What keeps a task from being done. -/
inductive Failure where
  | fault (cause : Fault)
  | file (error : FileError)
  | undecodable (malformed : Text.Utf8.Malformed)
  /-- The name of a file holds the character U+0000. -/
  | nullInPath
  /-- A file was asked for and not named. -/
  | noPath
  /-- A limit is greater than the host can keep. -/
  | limitTooGreat

/-- Which bytes of a text are malformed, and why. -/
def malformedMessage (malformed : Text.Utf8.Malformed) : String :=
  let last := malformed.past - 1
  let place :=
    if malformed.first = last then
      "byte 0x" ++ String.ofList (Text.hexPadded 2 malformed.byte.toNat) ++ " in position "
        ++ toString last
    else "bytes in position " ++ toString malformed.first ++ "-" ++ toString last
  "'utf-8' codec can't decode " ++ place ++ ": " ++ malformed.reason.text

namespace Failure

/-- What a failure says. -/
def message : Failure → String
  | .fault cause => cause.message
  | .file error => error.message
  | .undecodable malformed => malformedMessage malformed
  | .nullInPath => "embedded null byte"
  | .noPath => "expected str, bytes or os.PathLike object, not list"
  | .limitTooGreat => "Python int too large to convert to C int"

/-- The message of a failure that is reported; the others escape. -/
def reported? : Failure → Option String
  | .fault (.reported error) => some error.message
  | .file error => some error.message
  | _ => none

end Failure

/-- The program text that a file holds. -/
def sourceText (content : List UInt8) : Except Failure (List Char) :=
  match Text.Utf8.decode content with
  | .ok text => .ok (Text.unifyLineEnds text)
  | .error malformed => .error (.undecodable malformed)

/-- How files are reached. -/
structure Access (m : Type → Type) where
  read : Path → m (Except FileError (List UInt8))
  write : Path → List UInt8 → m (Except FileError Unit)

/-- Access to the files of a working directory. -/
def Files.access : Access (StateM Files) where
  read path := fun files => (files.read path, files)
  write path content := fun files =>
    match files.write path content with
    | .ok after => (.ok (), after)
    | .error error => (.error error, files)

/-- Reads program text from a path. -/
def Access.source {m : Type → Type} [Monad m] (access : Access m) (path : String) :
    m (Except Failure (List Char)) := do
  if path.toList.contains '\x00' then return .error .nullInPath
  match ← access.read (Path.ofText path) with
  | .ok content => return sourceText content
  | .error error => return .error (.file error)

/-- Writes text to a path. -/
def Access.target {m : Type → Type} [Monad m] (access : Access m) (path text : String) :
    m (Except Failure Unit) := do
  if path.toList.contains '\x00' then return .error .nullInPath
  let outcome ← access.write (Path.ofText path) text.toUTF8.toList
  return outcome.mapError .file

end SmallScheme.Host
