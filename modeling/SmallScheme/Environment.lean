import SmallScheme.Limits

/-!
# Environments

An environment is a stack of frames, and a frame is the row of bindings made in it. The innermost
frame always exists: the outermost one, the root, cannot be left. Looking a name up goes from the
innermost frame outwards and, in each frame, from the latest binding back.
-/

namespace SmallScheme

/-- A name with its value. -/
structure Binding where
  name : Name
  value : Datum

/-- The bindings of a frame, the latest first. A name may be bound again; the earlier bindings
stay. -/
abbrev Frame := List Binding

/-- The frames in force. -/
structure Environment where
  innermost : Frame
  /-- The other frames, from the inside out. -/
  outer : List Frame

namespace Environment

/-- The environment with a root frame only, which is empty. -/
def empty : Environment :=
  ⟨[], []⟩

instance : Inhabited Environment :=
  ⟨empty⟩

/-- All frames, from the inside out. -/
def frames (env : Environment) : List Frame :=
  env.innermost :: env.outer

/-- The number of frames. -/
def depth (env : Environment) : Nat :=
  env.frames.length

/-- Enters a new frame. -/
def push (env : Environment) : Environment :=
  ⟨[], env.frames⟩

/-- Leaves the innermost frame. -/
def pop (env : Environment) : Except Error Environment :=
  match env.outer with
  | [] => .error .rootFrame
  | frame :: outer => .ok ⟨frame, outer⟩

/-- Binds a name in the innermost frame. -/
def bind (name : Name) (value : Datum) (env : Environment) : Environment :=
  { env with innermost := ⟨name, value⟩ :: env.innermost }

/-- Binds names to values one by one, as far as both go. -/
def bindAll : List Name → List Datum → Environment → Environment
  | name :: names, value :: values, env => bindAll names values (env.bind name value)
  | _, _, env => env

/-- Binds what has to be a symbol. -/
def bindSymbol (key value : Datum) (env : Environment) : Except Error Environment :=
  match key with
  | .symbol name => .ok (env.bind name value)
  | _ => .error (.notSymbol key)

/-- The binding of a name that is in force. -/
def binding? (env : Environment) (name : Name) : Option Binding :=
  env.frames.findSome? (·.find? fun binding => binding.name == name)

/-- The value of a name. The foreign null is the value of no name, though binding it hides the
earlier bindings. -/
def lookup? (env : Environment) (name : Name) : Option Datum :=
  match env.binding? name with
  | none | some ⟨_, .foreign .null⟩ => none
  | some binding => some binding.value

/-- The value of a symbol; nothing else has one. -/
def lookupSymbol? (env : Environment) (key : Datum) : Option Datum :=
  match key with
  | .symbol name => env.lookup? name
  | _ => none

/-- The value of a name, which has to have one. -/
def resolve (env : Environment) (name : Name) : Except Error Datum :=
  match env.lookup? name with
  | some value => .ok value
  | none => .error (.unboundSymbol name)

/-- The value of a datum, which has to be a symbol that has one. The error shows the datum as plain
text, if it has one. -/
def resolveSymbol (limits : Limits) (env : Environment) (key : Datum) : Except Fault Datum :=
  match env.lookupSymbol? key with
  | some value => .ok value
  | none => do
    let name ← key.plain? limits
    throw (.reported (.unboundSymbol name))

/-- Runs a block in a frame of its own and leaves that frame however the block ends. What keeps
the frame from being left replaces the outcome of the block. -/
def scope {ε α : Type} (failure : Error → ε) (block : Environment → Except ε α × Environment)
    (env : Environment) : Except ε α × Environment :=
  let (outcome, after) := block env.push
  match after.pop with
  | .ok env => (outcome, env)
  | .error error => (.error (failure error), after)

/-- The bindings of a frame as text, the earliest first. -/
def frameText (limits : Limits) (frame : Frame) : Except Fault String := do
  let texts ← frame.reverse.mapM fun binding => do
    return binding.name ++ ": " ++ (← binding.value.describe? limits)
  return "\x7b" ++ ", ".intercalate texts ++ "\x7d"

/-- The innermost frame as text, with a mark if there are others. -/
def summary (limits : Limits) (env : Environment) : Except Fault String := do
  let text ← frameText limits env.innermost
  return if env.outer.isEmpty then text else text ++ " -> ..."

/-- All frames as text, from the inside out. -/
def describe (limits : Limits) (env : Environment) : Except Fault String := do
  let texts ← env.frames.mapM (frameText limits)
  return "<Environment frames: " ++ " -> ".intercalate texts ++ ">"

end Environment

end SmallScheme
