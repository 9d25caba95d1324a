import SmallScheme.Double.Basic

/-!
# Data

Programs and the values they compute are made of the same data. `Datum.depth` measures how deep
lists are nested in a datum, which is what printing and reading are limited by.
-/

namespace SmallScheme

/-- The name of a symbol. -/
abbrev Name := String

/-- A value that no program can write or compute. A host may put one into an environment or an
expression; it is passed on unchanged and never evaluated. -/
inductive Foreign where
  | null
  | float (value : Double)
  | text (value : String)
  deriving DecidableEq, Repr

/-- A piece of program text or a value. -/
inductive Datum where
  | boolean (value : Bool)
  | integer (value : Int)
  | symbol (name : Name)
  | list (items : List Datum)
  /-- A procedure made by a definition. Its body is kept as it was written, and it remembers nothing
  of the environment it was defined in. -/
  | procedure (name : Option Name) (parameters : List Name) (body : List Datum)
  | foreign (value : Foreign)
  deriving Inhabited

namespace Datum

mutual

/-- How deep lists are nested. A procedure counts as an atom. -/
def depth : Datum → Nat
  | .list items => depthOfAll items + 1
  | _ => 0

/-- The greatest depth of some data. -/
def depthOfAll : List Datum → Nat
  | [] => 0
  | item :: items => max item.depth (depthOfAll items)

end

/-- No member of a list is deeper than all of them together. -/
theorem depth_le_depthOfAll {item : Datum} {items : List Datum} (h : item ∈ items) :
    item.depth ≤ depthOfAll items := by
  induction items with
  | nil => simp at h
  | cons head tail ih =>
    rcases List.mem_cons.mp h with rfl | htail
    · exact Nat.le_max_left _ _
    · exact Nat.le_trans (ih htail) (Nat.le_max_right _ _)

/-- The list that the abbreviation `'datum` stands for. -/
def quoted (datum : Datum) : Datum :=
  .list [.symbol "quote", datum]

end Datum

end SmallScheme
