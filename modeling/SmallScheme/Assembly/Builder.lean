import SmallScheme.Assembly.Record

/-!
# Builders

A builder collects code lines and data records. It counts functions opened and left without looking
at their order, and the count is checked only when the text is built.
-/

namespace SmallScheme.Assembly

/-- Code and data collected so far. -/
structure Builder where
  code : Array String
  data : Array Record
  /-- How many more functions were opened than left. -/
  excess : Int

namespace Builder

/-- Nothing is collected. -/
def empty : Builder :=
  ⟨#[], #[], 0⟩

instance : Inhabited Builder :=
  ⟨empty⟩

/-- Adds a code line. -/
def add (line : String) (builder : Builder) : Builder :=
  { builder with code := builder.code.push line }

/-- Opens a function. -/
def openFunction (name : String) (builder : Builder) : Builder :=
  let builder :=
    ((builder.add (".global " ++ name)).add (".type " ++ name ++ ", @function")).add (name ++ ":")
  { builder with excess := builder.excess + 1 }

/-- Leaves a function. -/
def leaveFunction (builder : Builder) : Builder :=
  let builder := builder.add "ret"
  { builder with excess := builder.excess - 1 }

/-- Adds a move, if it has a text. -/
def move (move : Move) (builder : Builder) : Except Fault Unit × Builder :=
  match move.text with
  | .ok line => (.ok (), builder.add line)
  | .error fault => (.error fault, builder)

/-- Runs a block inside of a function. A block that does not complete leaves the function open. -/
def function {ε α : Type} (name : String) (block : Builder → Except ε α × Builder)
    (builder : Builder) : Except ε α × Builder :=
  match block (builder.openFunction name) with
  | (.ok value, builder) => (.ok value, builder.leaveFunction)
  | (.error error, builder) => (.error error, builder)

/-- The label of the next record: the number of records before it. -/
def nextLabel (builder : Builder) : String :=
  "LC_" ++ toString builder.data.size

/-- Stores a constant. -/
def store (offer : Offer) (builder : Builder) : Except Error Record × Builder :=
  match offer.accept with
  | .ok constant =>
    let record : Record := ⟨builder.nextLabel, constant⟩
    (.ok record, { builder with data := builder.data.push record })
  | .error error => (.error error, builder)

/-- Refuses to go on if functions were not opened as often as left. -/
def validate (builder : Builder) : Except Error Unit :=
  if builder.excess = 0 then .ok () else .error (.unbalanced builder.excess)

/-- Whether a line starts in the first column: directives and labels do. -/
def isUnindented (line : String) : Bool :=
  line.toList.head? == some '.' || line.toList.getLast? == some ':'

/-- A code line in its column. -/
def formatLine (line : String) : String :=
  if isUnindented line then line else "        " ++ line

/-- The text of code and data. -/
def build (builder : Builder) : Except Fault String := do
  builder.validate.mapError Fault.reported
  let records ← builder.data.toList.mapM Record.text
  let lines := builder.code.toList.map (formatLine · ++ "\n")
  return String.join (lines ++ records)

end Builder

end SmallScheme.Assembly
