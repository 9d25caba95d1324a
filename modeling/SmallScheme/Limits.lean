import SmallScheme.Error

/-!
# What can be written

Nested data cost stack, so one number bounds how deep reading, evaluating, printing and describing
may go. Exceeding a bound is an error of its own and never a wrong result. Printing and describing
also come to numbers, of which only those with not too many digits are written.
-/

namespace SmallScheme

/-- The number of calls that may be active at once. -/
structure Limits where
  calls : Nat
  deriving DecidableEq, Repr

namespace Limits

/-- The limits that hold unless settings say otherwise. -/
def standard : Limits :=
  ⟨1000⟩

/-- How deep an expression may be nested to be read. A level takes two calls. -/
def reading (limits : Limits) : Nat :=
  limits.calls / 2

/-- How many evaluations may be active at once. An evaluation takes two calls. -/
def evaluating (limits : Limits) : Nat :=
  limits.calls / 2

/-- How deep a datum may be nested to be printed. A level takes three calls. -/
def printing (limits : Limits) : Nat :=
  limits.calls / 3

/-- How deep a datum may be nested to be described. A level takes one call. -/
def describing (limits : Limits) : Nat :=
  limits.calls

end Limits

namespace Datum

/-- The fault of printing data that are nested too deeply. -/
def unprintable : Fault :=
  .reported (.tooDeep .printing)

mutual

/-- What keeps a datum from being printed, if `levels` levels of lists are left: lists nested too
deeply, or a number that is too long. The body of a procedure is not printed. -/
def printingObstacle? (levels : Nat) : Datum → Option Fault
  | .integer value => Numeral.obstacle? value
  | .list items =>
    match levels with
    | 0 => some unprintable
    | levels + 1 => printingObstacleAmong? levels items
  | _ => none

/-- What keeps some data from being printed: the first obstacle among them. -/
def printingObstacleAmong? (levels : Nat) : List Datum → Option Fault
  | [] => none
  | item :: items => (printingObstacle? levels item).or (printingObstacleAmong? levels items)

end

mutual

/-- What keeps a datum from being described, if `levels` levels of lists are left: lists nested
too deeply, a number that is too long, or a procedure whose body cannot be printed. -/
def obstacle? (limits : Limits) (levels : Nat) : Datum → Option Fault
  | .integer value => Numeral.obstacle? value
  | .list items =>
    match levels with
    | 0 => some .exhausted
    | levels + 1 => obstacleAmong? limits levels items
  | .procedure _ _ body => printingObstacleAmong? limits.printing body
  | _ => none

/-- What keeps some data from being described: the first obstacle among them. -/
def obstacleAmong? (limits : Limits) (levels : Nat) : List Datum → Option Fault
  | [] => none
  | item :: items => (obstacle? limits levels item).or (obstacleAmong? limits levels items)

end

/-- The program text of a datum, within the limits. -/
def print? (limits : Limits) (datum : Datum) : Except Fault String :=
  textUnless (printingObstacle? limits.printing datum) datum.print

/-- The description of a datum, within the limits. -/
def describe? (limits : Limits) (datum : Datum) : Except Fault String :=
  textUnless (obstacle? limits limits.describing datum) datum.describe

/-- The plain text of a datum, within the limits. -/
def plain? (limits : Limits) (datum : Datum) : Except Fault String :=
  textUnless (obstacle? limits limits.describing datum) datum.plain

end Datum

/-- What keeps an error from being worded: something about the data that it describes. -/
def Error.obstacle? (limits : Limits) (error : Error) : Option Fault :=
  Datum.obstacleAmong? limits limits.describing error.described

/-- The fault that an error comes to: the error itself, or what keeps it from being worded. -/
def Error.fault (limits : Limits) (error : Error) : Fault :=
  (error.obstacle? limits).getD (.reported error)

end SmallScheme
