import SmallScheme.Text.DecimalDigit

/-!
# Command line arguments

A command takes the option for help, one option with a value, and one positional argument. Options
and the positional argument may come in any order. A long option may be shortened as long as only
one option begins so; two dashes on their own end the options.
-/

namespace SmallScheme.CommandLine

/-- What arguments a command takes. -/
structure Interface where
  /-- The letter of the option with a value. -/
  letter : Char
  /-- The long name of the option with a value. -/
  long : String
  /-- Whether the positional argument has to be given. -/
  required : Bool

/-- What was given to a command. -/
structure Given where
  /-- The value of the option, where it was given. Two dashes attached to it are no value. -/
  option : Option (Option String)
  positional : Option String
  deriving DecidableEq, Repr

/-- What reading the arguments comes to. -/
inductive Parsed where
  | run (given : Given)
  /-- Help was asked for. -/
  | help
  /-- The arguments are not what the command takes. -/
  | misuse
  deriving DecidableEq, Repr

/-- The options of a command. -/
inductive Flag where
  | help
  | valued
  deriving DecidableEq, Repr

/-- What an argument is. -/
inductive Word where
  | plain (text : String)
  /-- Two dashes: all that follows is plain. -/
  | separator
  | help
  /-- The letter for help with more letters attached. -/
  | letters (more : List Char)
  /-- The option with a value, which may be attached to it. -/
  | valued (attached : Option (List Char))
  /-- The long name for help with a value attached, which it does not take. -/
  | refused
  /-- It looks like an option and is none. -/
  | unknown
  /-- It could be either option. -/
  | ambiguous
  deriving DecidableEq, Repr

namespace Interface

/-- The option of a letter. -/
def flagOfLetter? (interface : Interface) (letter : Char) : Option Flag :=
  if letter = 'h' then some .help
  else if letter = interface.letter then some .valued
  else none

/-- The options whose long name begins with a text, which is given without its dashes. -/
def flagsOfStem (interface : Interface) (stem : List Char) : List Flag :=
  (if stem.isPrefixOf "help".toList then [.help] else [])
    ++ (if stem.isPrefixOf interface.long.toList then [.valued] else [])

/-- The long name of an option. -/
def longName (interface : Interface) : Flag → String
  | .help => "help"
  | .valued => interface.long

/-- Whether a text is that of a negative number: digits, or a point with digits behind it. A line
feed at the end does not count. -/
def isNumber (text : List Char) : Bool :=
  let isDigit (c : Char) : Bool := (Text.digitValue? c).isSome
  let text := if text.getLast? = some '\n' then text.dropLast else text
  match text.dropWhile isDigit with
  | [] => !text.isEmpty
  | '.' :: fraction => !fraction.isEmpty && fraction.all isDigit
  | _ => false

/-- What an argument with a dash is that names no option: numbers and what has a space in it are
plain. -/
def unnamed (text : List Char) : Word :=
  if isNumber (text.drop 1) || text.contains ' ' then .plain (String.ofList text) else .unknown

/-- The value behind an equals sign. -/
def attached? : List Char → Option (List Char)
  | '=' :: value => some value
  | _ => none

/-- An option under its long name. -/
def longFlag (attached : Option (List Char)) : Flag → Word
  | .help => if attached.isSome then .refused else .help
  | .valued => .valued attached

/-- What an argument that begins with two dashes is. The full name of an option wins over names
that it begins. -/
def longWord (interface : Interface) (text : List Char) : Word :=
  let stem := (text.drop 2).takeWhile (· != '=')
  let attached := attached? ((text.drop 2).dropWhile (· != '='))
  match interface.flagsOfStem stem with
  | [] => unnamed text
  | [flag] => longFlag attached flag
  | flags =>
    match flags.find? fun flag => (interface.longName flag).toList == stem with
    | some flag => longFlag attached flag
    | none => .ambiguous

/-- What an argument that begins with a dash and a letter is. An equals sign may stand before what
is attached to the letter. -/
def shortWord (interface : Interface) (letter : Char) (rest : List Char) : Word :=
  let attached := (attached? rest).getD rest
  match interface.flagOfLetter? letter with
  | none => unnamed ('-' :: letter :: rest)
  | some .help => if rest.isEmpty then .help else .letters attached
  | some .valued => .valued (if rest.isEmpty then none else some attached)

/-- What an argument is. -/
def word (interface : Interface) (argument : String) : Word :=
  match argument.toList with
  | ['-', '-'] => .separator
  | '-' :: '-' :: _ => interface.longWord argument.toList
  | '-' :: letter :: rest => interface.shortWord letter rest
  | _ => .plain argument

/-- What the arguments are. Behind the separator all of them are plain. -/
def words (interface : Interface) : List String → List Word
  | [] => []
  | argument :: rest =>
    match interface.word argument with
    | .separator => .separator :: rest.map .plain
    | word => word :: interface.words rest

/-- What letters attached to the letter for help come to. Each has to be the letter of an option;
help is given unless the option with a value lacks it. `followed` tells whether a plain argument
follows. -/
def cluster (interface : Interface) (followed : Bool) : List Char → Parsed
  | [] => .misuse
  | letter :: rest =>
    match interface.flagOfLetter? letter with
    | none => .misuse
    | some .valued => if rest.isEmpty && !followed then .misuse else .help
    | some .help => if rest.isEmpty then .help else interface.cluster followed rest

/-- The value that is attached to an option. -/
def valueOf (attached : List Char) : Option String :=
  if attached = ['-', '-'] then none else some (String.ofList attached)

/-- How far the arguments are read. -/
structure Reading where
  option : Option (Option String)
  /-- The positional argument; it counts as given if the separator stands in its place. -/
  positional : Option (Option String)
  /-- Whether there was an argument too many. -/
  excess : Bool

/-- Whether the next word is plain. -/
def startsPlain : List Word → Bool
  | .plain _ :: _ => true
  | _ => false

/-- What the arguments come to when all are read. -/
def finish (interface : Interface) (reading : Reading) : Parsed :=
  if reading.excess || (interface.required && reading.positional.isNone) then .misuse
  else .run ⟨reading.option, reading.positional.join⟩

/-- Reads the words. The positional argument takes a separator on either side of it along. -/
def readWords (interface : Interface) (reading : Reading) : List Word → Parsed
  | [] => interface.finish reading
  | .plain text :: rest =>
    match reading.positional, rest with
    | some _, rest => interface.readWords { reading with excess := true } rest
    | none, .separator :: rest =>
      interface.readWords { reading with positional := some (some text) } rest
    | none, rest => interface.readWords { reading with positional := some (some text) } rest
  | .separator :: rest =>
    match reading.positional, rest with
    | none, .plain text :: rest =>
      interface.readWords { reading with positional := some (some text) } rest
    | none, [] =>
      if interface.required then .misuse
      else interface.finish { reading with positional := some none }
    | _, rest => interface.readWords { reading with excess := true } rest
  | .help :: _ => .help
  | .letters more :: rest => interface.cluster (startsPlain rest) more
  | .valued (some attached) :: rest =>
    interface.readWords { reading with option := some (valueOf attached) } rest
  | .valued none :: rest =>
    match rest with
    | .plain text :: rest => interface.readWords { reading with option := some (some text) } rest
    | _ => .misuse
  | .unknown :: rest => interface.readWords { reading with excess := true } rest
  | .refused :: _ | .ambiguous :: _ => .misuse

/-- Reads the arguments of a command. Ambiguity is noticed before anything else. -/
def parse (interface : Interface) (arguments : List String) : Parsed :=
  let words := interface.words arguments
  if words.contains .ambiguous then .misuse else interface.readWords ⟨none, none, false⟩ words

end Interface

end SmallScheme.CommandLine
