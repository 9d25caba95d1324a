import Mathlib.Data.Set.Basic
import SmallScheme.Datum.Basic

/-!
# The parts of data

A datum is searched in two ways. `Datum.Inside` finds what stands in a datum as it is written: the
datum itself and what stands in the members of lists, where a procedure is an atom. The names that
`Datum.Mentions` finds also come from the parameters and the bodies of procedures, since a call
brings them to evaluation.
-/

namespace SmallScheme.Datum

/-- Induction over data: a property holds of a list if it holds of the members, and of a procedure
if it holds of the expressions of the body. -/
@[elab_as_elim, induction_eliminator]
theorem induction {motive : Datum → Prop}
    (boolean : ∀ value, motive (.boolean value))
    (integer : ∀ value, motive (.integer value))
    (symbol : ∀ name, motive (.symbol name))
    (list : ∀ items, (∀ item ∈ items, motive item) → motive (.list items))
    (procedure : ∀ name parameters body, (∀ expression ∈ body, motive expression) →
      motive (.procedure name parameters body))
    (foreign : ∀ value, motive (.foreign value)) (datum : Datum) : motive datum := by
  refine @Datum.rec motive (fun items => ∀ item ∈ items, motive item) boolean integer symbol list
    procedure foreign ?nil ?cons datum
  case nil =>
    intro item hitem
    exact absurd hitem List.not_mem_nil
  case cons =>
    intro head tail hhead htail item hitem
    rcases List.mem_cons.mp hitem with rfl | hmem
    · exact hhead
    · exact htail item hmem

/-- Standing in a datum: being the datum, or standing in a member of a list that does. -/
inductive Inside (part : Datum) : Datum → Prop
  | self : Inside part part
  | member {item : Datum} {items : List Datum} : item ∈ items → Inside part item →
      Inside part (.list items)

/-- Having no procedure inside, not even in a list. -/
def ProcedureFree (datum : Datum) : Prop :=
  ∀ name parameters body, ¬ Inside (.procedure name parameters body) datum

/-- Being a name that occurs as a symbol: as it is written, as a parameter, or in a body. -/
inductive Mentions (name : Name) : Datum → Prop
  | symbol : Mentions name (.symbol name)
  | member {item : Datum} {items : List Datum} : item ∈ items → Mentions name item →
      Mentions name (.list items)
  | parameter {procedure : Option Name} {parameters : List Name} {body : List Datum} :
      name ∈ parameters → Mentions name (.procedure procedure parameters body)
  | body {procedure : Option Name} {parameters : List Name} {expression : Datum}
      {body : List Datum} : expression ∈ body → Mentions name expression →
      Mentions name (.procedure procedure parameters body)

/-- Mentioning no names but those of a set. -/
def Over (names : Set Name) (datum : Datum) : Prop :=
  ∀ name, datum.Mentions name → name ∈ names

theorem procedureFree_list_iff {items : List Datum} :
    (Datum.list items).ProcedureFree ↔ ∀ item ∈ items, item.ProcedureFree := by
  constructor
  · exact fun h item hitem name parameters body hinside =>
      h name parameters body (.member hitem hinside)
  · intro h name parameters body hinside
    cases hinside with
    | member hitem hinner => exact h _ hitem name parameters body hinner

variable {names : Set Name}

@[simp] theorem over_boolean (value : Bool) : (Datum.boolean value).Over names := by
  intro name h
  cases h

@[simp] theorem over_integer (value : Int) : (Datum.integer value).Over names := by
  intro name h
  cases h

@[simp] theorem over_symbol {name : Name} : (Datum.symbol name).Over names ↔ name ∈ names := by
  constructor
  · intro h
    exact h name Mentions.symbol
  · rintro h other ⟨⟩
    exact h

@[simp] theorem over_list {items : List Datum} :
    (Datum.list items).Over names ↔ ∀ item ∈ items, item.Over names := by
  constructor
  · intro h item hitem name hname
    exact h name (Mentions.member hitem hname)
  · intro h name hname
    cases hname with
    | member hitem hname => exact h _ hitem name hname

@[simp] theorem over_procedure {procedure : Option Name} {parameters : List Name}
    {body : List Datum} :
    (Datum.procedure procedure parameters body).Over names ↔
      (∀ name ∈ parameters, name ∈ names) ∧ ∀ expression ∈ body, expression.Over names := by
  constructor
  · intro h
    exact ⟨fun name hname => h name (Mentions.parameter hname),
      fun expression hexpression name hname => h name (Mentions.body hexpression hname)⟩
  · rintro ⟨hparameters, hbody⟩ name hname
    cases hname with
    | parameter hname => exact hparameters name hname
    | body hexpression hname => exact hbody _ hexpression name hname

end SmallScheme.Datum
