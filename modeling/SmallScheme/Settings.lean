import SmallScheme.Log
import SmallScheme.Numeral
import SmallScheme.Text.Blank
import SmallScheme.Text.DecimalDigit

/-!
# Settings

Settings come from variables of the host's environment. A variable that is missing or blank leaves
the default in place, and so does one whose value makes no sense.
-/

namespace SmallScheme.Settings

/-- The variables of the host's environment. -/
abbrev Variables := List (String × String)

/-- The variable for the level of the log. -/
def levelName : String :=
  "SCHEME_LOG_LEVEL"

/-- The variable for the limit on active calls. -/
def limitName : String :=
  "SCHEME_RECURSION_LIMIT"

/-- The variable for the file that compiled programs are written to. -/
def outputName : String :=
  "SCHEME_OUTPUT"

/-- The value of a variable without the blanks around it, or the default if nothing is left. -/
def value (vars : Variables) (name : String) (default : Option String) : Option String :=
  match vars.lookup name with
  | none => default
  | some text => if (Text.trim text).isEmpty then default else some (Text.trim text)

/-- The value of a variable that has a default. -/
def valueOr (vars : Variables) (name default : String) : String :=
  (value vars name none).getD default

/-- A character in upper case, as far as the names of levels can tell: besides the letters of ASCII
only the dotless i and the long s become letters of ASCII. -/
def upper (c : Char) : Char :=
  if c = 'ı' then 'I' else if c = 'ſ' then 'S' else c.toUpper

/-- The level of a name in upper case. -/
def levelOfName? : String → Option Log.Level
  | "CRITICAL" | "FATAL" => some .critical
  | "ERROR" => some .error
  | "WARNING" | "WARN" => some .warning
  | "INFO" => some .info
  | "DEBUG" => some .debug
  | "NOTSET" => some .notSet
  | _ => none

/-- The level from which log entries are written. -/
def logLevel (vars : Variables) : Log.Level :=
  let name := valueOr vars levelName "WARNING"
  (levelOfName? (name.map upper)).getD .warning

/-- The values of digits of any script, where single underscores may stand between two digits. -/
def digitValues? : List Char → Option (List Nat)
  | [] => none
  | [c] => (Text.digitValue? c).map ([·])
  | c :: '_' :: rest => do return (← Text.digitValue? c) :: (← digitValues? rest)
  | c :: rest => do return (← Text.digitValue? c) :: (← digitValues? rest)

/-- The number that digits of any script mean. -/
def natural? (text : List Char) : Option Nat :=
  match digitValues? text with
  | some values =>
    if values.length ≤ Numeral.longest then some (values.foldl (fun n value => 10 * n + value) 0)
    else none
  | none => none

/-- The number that a text means; a sign may stand directly before its digits. -/
def integer? (text : List Char) : Option Int :=
  match text with
  | '+' :: rest => (natural? rest).map Int.ofNat
  | '-' :: rest => (natural? rest).map fun n => -Int.ofNat n
  | rest => (natural? rest).map Int.ofNat

/-- The limit on active calls, if a positive one is set. -/
def recursionLimit? (vars : Variables) : Option Nat :=
  match value vars limitName none with
  | none => none
  | some text =>
    match integer? text.toList with
    | some n => if 0 < n then some n.toNat else none
    | none => none

/-- Where compiled programs are written. -/
def output (vars : Variables) : String :=
  valueOr vars outputName "output.asm"

end SmallScheme.Settings
