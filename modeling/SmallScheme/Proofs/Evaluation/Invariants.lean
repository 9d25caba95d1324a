import SmallScheme.Interpreter
import SmallScheme.Proofs.Environment.Values
import SmallScheme.Proofs.Evaluation.Simulation

/-!
# What evaluation preserves

An evaluation that is compared with itself says what it preserves. Let code be of one property,
values of another and errors of a third. If literals, quotations, definitions and primitives lead
from the first two to the last two, then so does evaluation, in whatever frames and behind whatever
error (`Invariant.within`).
-/

namespace SmallScheme

open Evaluation

/-- What the steps of evaluation need of three properties to lead from code to values, or errors. -/
structure Evaluation.Invariant (code values : Datum → Prop) (errors : Error → Prop) : Prop where
  member {items : List Datum} : code (.list items) → ∀ item ∈ items, code item
  /-- Quoted data and literals are values as they are written. -/
  self {datum : Datum} : code datum → values datum
  definition {name : Name} {parameters body : List Datum} {names : List Name} :
    code (.list (.symbol "define" :: .list (.symbol name :: parameters) :: body)) →
    parameterNames name parameters = .ok names → values (.procedure name names body)
  called {value : Datum} : values value → Simulation.CalledAlike code value value
  yields {primitive : Primitive} {operands : List Datum} {result : Datum} :
    primitive.apply operands = .ok result → (∀ operand ∈ operands, values operand) → values result
  fails {primitive : Primitive} {operands : List Datum} {error : Error} :
    primitive.apply operands = .error error → (∀ operand ∈ operands, values operand) → errors error
  /-- Evaluation itself comes to errors about values. -/
  about {error : Error} : error.About values → errors error
  foreign {value : Foreign} : code (.foreign value) → errors (.notEvaluable (.foreign value))

namespace Simulation

/-- The comparison of an evaluation with itself, by the properties of what it is about. -/
def reflexive (code values : Datum → Prop) (errors : Error → Prop) : Simulation where
  code := code
  values a b := values a ∧ a = b
  environments env other := env.Binds values ∧ env = other
  errors a b := errors a ∧ a = b

end Simulation

namespace Evaluation.Invariant

variable {code values : Datum → Prop} {errors : Error → Prop}

private theorem eq_of_forall₂ {operands others : List Datum}
    (h : List.Forall₂ (fun a b => values a ∧ a = b) operands others) :
    (∀ operand ∈ operands, values operand) ∧ operands = others := by
  obtain ⟨hvalues, hequal⟩ := (List.forall₂_and_left _ _).mp h
  exact ⟨hvalues, List.forall₂_eq_eq_eq ▸ hequal⟩

theorem lawful (h : Invariant code values errors) :
    (Simulation.reflexive code values errors).Lawful where
  member hcode := h.member hcode
  self hcode := ⟨h.self hcode, rfl⟩
  definition hcode hnames := ⟨h.definition hcode hnames, rfl⟩
  condition hvalue := by rw [hvalue.2]
  called := by
    rintro a b ⟨hvalue, rfl⟩
    exact h.called hvalue
  primitive primitive operands others hoperands := by
    obtain ⟨hvalues, rfl⟩ := eq_of_forall₂ hoperands
    rcases hresult : primitive.apply operands with error | result
    · exact .fault ⟨h.fails hresult hvalues, rfl⟩
    · exact .value ⟨h.yields hresult hvalues, rfl⟩
  lookup := by
    rintro env other ⟨henv, rfl⟩ name _
    rcases hvalue : env.lookup? name with _ | value
    · exact .none
    · exact .some ⟨henv.lookup? hvalue, rfl⟩
  bind := by
    rintro env other name a b ⟨henv, rfl⟩ _ ⟨hvalue, rfl⟩
    exact ⟨henv.bind name hvalue, rfl⟩
  push := by
    rintro env other ⟨henv, rfl⟩
    exact ⟨henv.push, rfl⟩
  same hprogram hdescribed := ⟨h.about (.of_described hprogram hdescribed), rfl⟩
  parameter _ hcode := ⟨h.about (.of_value trivial rfl (h.self hcode)), rfl⟩
  notDefinable hcode := ⟨h.about (.of_value trivial rfl (h.self hcode)), rfl⟩
  foreign hcode := ⟨h.foreign hcode, rfl⟩
  notProcedure := by
    rintro a b ⟨hvalue, rfl⟩
    exact ⟨h.about (.of_value trivial rfl hvalue), rfl⟩
  notApplicable {head operands others} hcode hoperands := by
    obtain ⟨hvalues, rfl⟩ := eq_of_forall₂ hoperands
    refine ⟨h.about ⟨trivial, List.forall_mem_cons.mpr ⟨Or.inl (h.self hcode), ?_⟩⟩, rfl⟩
    exact List.forall_mem_singleton.mpr (Or.inr ⟨operands, rfl, hvalues⟩)

/-- Evaluation leads from code to values, or to errors, and binds nothing but values. -/
theorem within (h : Invariant code values errors) (levels : Nat) {expression : Datum}
    {env : Environment} (hexpression : code expression) (henv : env.Binds values) :
    (∀ value, (within levels expression env).1 = .ok value → values value) ∧
      (∀ fault, (within levels expression env).1 = .error fault →
        fault = .exhausted ∨ ∃ error, fault = .reported error ∧ errors error) ∧
      (within levels expression env).2.Binds values := by
  obtain ⟨houtcome, hafter, _⟩ :=
    Simulation.simulates_within h.lawful levels hexpression env env ⟨henv, rfl⟩
  refine ⟨fun value hvalue => ?_, fun fault hfault => ?_, hafter⟩
  · rw [hvalue] at houtcome
    cases houtcome with
    | value hvalues => exact hvalues.1
  · rw [hfault] at houtcome
    cases houtcome with
    | fault hfaults =>
      cases hfaults with
      | reported herror => exact Or.inr ⟨_, rfl, herror.1⟩
      | exhausted => exact Or.inl rfl

end Evaluation.Invariant

end SmallScheme
