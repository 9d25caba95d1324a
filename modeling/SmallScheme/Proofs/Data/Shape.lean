import Mathlib.Data.List.Forall2
import SmallScheme.Proofs.Data.Obstacles

/-!
# Data of the same shape

Evaluation takes a datum apart by its kind, and a list into its members; of a procedure it sees the
parameters and the first expression. A relation between data that respects this is a
`Datum.Congruence`: related data have the same shape, and lists of related members are related. Two
errors are alike if they are of the same class and show related data.
-/

namespace SmallScheme

/-- What follows for the members of one row from their being related to another row. -/
theorem forall₂_imp_of_mem {α β : Type} {related implied : α → β → Prop} {items : List α}
    {others : List β} (himp : ∀ item ∈ items, ∀ other, related item other → implied item other)
    (h : List.Forall₂ related items others) : List.Forall₂ implied items others := by
  induction h with
  | nil => exact .nil
  | cons hrelated _ ih =>
    refine .cons (himp _ List.mem_cons_self _ hrelated) (ih fun item hitem => ?_)
    exact himp item (List.mem_cons_of_mem _ hitem)

/-- Rows that are related begin with related members, or neither has any. -/
theorem rel_head? {α β : Type} {related : α → β → Prop} {items : List α} {others : List β}
    (h : List.Forall₂ related items others) : Option.Rel related items.head? others.head? := by
  cases h with
  | nil => exact .none
  | cons hrelated => exact .some hrelated

/-- Two searches through rows find the same if they come to the same on related members. -/
theorem findSome?_eq_of_forall₂ {α β γ : Type} {f : α → Option γ} {g : β → Option γ}
    {items : List α} {others : List β} (h : List.Forall₂ (fun a b => f a = g b) items others) :
    items.findSome? f = others.findSome? g := by
  induction h with
  | nil => rfl
  | cons hitem _ ih => rw [List.findSome?_cons, List.findSome?_cons, hitem, ih]

theorem rel_cases {α β : Type} {related : α → β → Prop} {a : Option α} {b : Option β}
    (h : Option.Rel related a b) :
    a = none ∧ b = none ∨ ∃ x y, a = some x ∧ b = some y ∧ related x y := by
  cases h with
  | none => exact Or.inl ⟨rfl, rfl⟩
  | some hrelated => exact Or.inr ⟨_, _, rfl, rfl, hrelated⟩

namespace Datum

/-- Having the same shape: being the same boolean, integer or symbol, lists whose members are
related one by one, two procedures, or two foreign values of which both are null or neither is. -/
inductive SameShape (related : Datum → Datum → Prop) : Datum → Datum → Prop
  | boolean (value : Bool) : SameShape related (.boolean value) (.boolean value)
  | integer (value : Int) : SameShape related (.integer value) (.integer value)
  | symbol (name : Name) : SameShape related (.symbol name) (.symbol name)
  | list {items others : List Datum} : List.Forall₂ related items others →
      SameShape related (.list items) (.list others)
  | procedure {name otherName : Option Name} {parameters otherParameters : List Name}
      {body otherBody : List Datum} :
      SameShape related (.procedure name parameters body)
        (.procedure otherName otherParameters otherBody)
  | foreign {a b : Foreign} : (a = .null ↔ b = .null) →
      SameShape related (.foreign a) (.foreign b)

/-- A datum has its own shape if the members of a list are related to themselves. -/
theorem SameShape.self {related : Datum → Datum → Prop} {datum : Datum}
    (h : ∀ items, datum = .list items → ∀ item ∈ items, related item item) :
    SameShape related datum datum := by
  cases datum with
  | boolean value => exact .boolean value
  | integer value => exact .integer value
  | symbol name => exact .symbol name
  | list items => exact .list (List.forall₂_same.mpr (h items rfl))
  | procedure => exact .procedure
  | foreign => exact .foreign Iff.rfl

/-- A relation that keeps the shape of data and goes through lists member by member. -/
structure Congruence (related : Datum → Datum → Prop) : Prop where
  refl (datum : Datum) : related datum datum
  shape {a b : Datum} : related a b → SameShape related a b
  list {items others : List Datum} : List.Forall₂ related items others →
    related (.list items) (.list others)

/-- Equality is a congruence. -/
theorem congruence_eq : Congruence (· = ·) where
  refl _ := rfl
  shape := by
    rintro a _ rfl
    exact .self fun _ _ _ _ => rfl
  list h := congrArg Datum.list (List.forall₂_eq_eq_eq ▸ h)

variable {related : Datum → Datum → Prop} {a b : Datum} {items others : List Datum}

namespace Congruence

theorem refl_all (h : Congruence related) (items : List Datum) :
    List.Forall₂ related items items :=
  List.forall₂_same.mpr fun item _ => h.refl item

/-- The same obstacle keeps related data from being printed: lists are nested equally deep in them,
and the numbers are the same. -/
theorem printingObstacle?_eq (h : Congruence related) (hrelated : related a b) (levels : Nat) :
    printingObstacle? levels a = printingObstacle? levels b := by
  induction a generalizing b levels with
  | list items ih =>
    cases h.shape hrelated with
    | list hmembers =>
      cases levels with
      | zero => rfl
      | succ levels =>
        rw [printingObstacle?, printingObstacle?, printingObstacleAmong?_eq,
          printingObstacleAmong?_eq]
        exact findSome?_eq_of_forall₂
          (forall₂_imp_of_mem (fun item hitem _ hmember => ih item hitem hmember levels) hmembers)
  | boolean | integer | symbol | procedure | foreign =>
    cases h.shape hrelated
    rfl

theorem printingObstacleAmong?_eq (h : Congruence related)
    (hitems : List.Forall₂ related items others) (levels : Nat) :
    printingObstacleAmong? levels items = printingObstacleAmong? levels others := by
  rw [Datum.printingObstacleAmong?_eq, Datum.printingObstacleAmong?_eq]
  exact findSome?_eq_of_forall₂ (hitems.imp fun _ _ hitem => h.printingObstacle?_eq hitem levels)

end Congruence

end Datum

/-- Being of the same class and showing related data. -/
structure Error.Alike (related : Datum → Datum → Prop) (error other : Error) : Prop where
  kind : error.kind = other.kind
  described : List.Forall₂ related error.described other.described

theorem Error.Alike.refl {related : Datum → Datum → Prop} (h : Datum.Congruence related)
    (error : Error) : Alike related error error :=
  ⟨rfl, h.refl_all _⟩

/-- Being reported as errors of the same class, or being the same fault. -/
inductive Fault.SameClass : Fault → Fault → Prop
  | reported {error other : Error} : error.kind = other.kind →
      SameClass (.reported error) (.reported other)
  | same (fault : Fault) : SameClass fault fault

end SmallScheme
