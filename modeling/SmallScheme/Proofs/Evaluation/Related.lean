import Mathlib.Data.List.Forall2
import SmallScheme.Proofs.Evaluation.Errors
import SmallScheme.Proofs.Evaluation.FrameLaw

/-!
# Two computations side by side

`Simulation` collects what two computations are compared by: the expressions that may come to
evaluation, the values, the environments and the errors. Its laws say what each step of evaluation
needs. Computations that simulate each other do so when they are composed, and also in frames of
their own: by the frame law a frame leaves no trace, so nothing has to be known about leaving it.
-/

namespace SmallScheme

/-- Two outcomes: two values of a relation, or two faults of a relation. -/
inductive Outcomes {α β φ ψ : Type} (values : α → β → Prop) (faults : φ → ψ → Prop) :
    Except φ α → Except ψ β → Prop
  | value {a : α} {b : β} : values a b → Outcomes values faults (.ok a) (.ok b)
  | fault {f : φ} {g : ψ} : faults f g → Outcomes values faults (.error f) (.error g)

namespace Outcomes

variable {α β γ δ φ ψ : Type} {values : α → β → Prop} {results : γ → δ → Prop}
  {faults : φ → ψ → Prop}

theorem imp {implied : α → β → Prop} {impliedFaults : φ → ψ → Prop} {outcome : Except φ α}
    {other : Except ψ β} (h : Outcomes values faults outcome other)
    (hvalues : ∀ a b, values a b → implied a b) (hfaults : ∀ f g, faults f g → impliedFaults f g) :
    Outcomes implied impliedFaults outcome other := by
  cases h with
  | value h => exact .value (hvalues _ _ h)
  | fault h => exact .fault (hfaults _ _ h)

/-- Outcomes are related behind related outcomes if they are behind related values. -/
theorem bind {first : Except φ α} {other : Except ψ β} {next : α → Except φ γ}
    {otherNext : β → Except ψ δ} (hfirst : Outcomes values faults first other)
    (hnext : ∀ a b, values a b → Outcomes results faults (next a) (otherNext b)) :
    Outcomes results faults (first >>= next) (other >>= otherNext) := by
  cases hfirst with
  | value h => exact hnext _ _ h
  | fault h => exact .fault h

theorem map {first : Except φ α} {other : Except ψ β} {f : α → γ} {g : β → δ}
    (hfirst : Outcomes values faults first other) (h : ∀ a b, values a b → results (f a) (g b)) :
    Outcomes results faults (first.map f) (other.map g) := by
  cases hfirst with
  | value hvalue => exact .value (h _ _ hvalue)
  | fault hfault => exact .fault hfault

theorem mapError {settled : φ → γ} {otherSettled : ψ → δ} {first : Except φ α} {other : Except ψ β}
    (h : Outcomes values faults first other)
    (hfaults : ∀ f g, faults f g → results (settled f) (otherSettled g)) :
    Outcomes values results (first.mapError settled) (other.mapError otherSettled) := by
  cases h with
  | value hvalue => exact .value hvalue
  | fault hfault => exact .fault (hfaults _ _ hfault)

/-- Related members of two rows are gone through with related outcomes. -/
theorem mapM {step : α → Except φ γ} {other : β → Except ψ δ} {items : List α} {others : List β}
    (h : List.Forall₂ (fun a b => Outcomes results faults (step a) (other b)) items others) :
    Outcomes (List.Forall₂ results) faults (items.mapM step) (others.mapM other) := by
  induction h with
  | nil => exact .value .nil
  | cons hitem _ ih =>
    rw [List.mapM_cons, List.mapM_cons]
    refine hitem.bind fun a b hresult => ?_
    exact ih.bind fun as bs hresults => .value (.cons hresult hresults)

end Outcomes

/-- What two evaluations are compared by. -/
structure Simulation where
  /-- The expressions that may come to evaluation. -/
  code : Datum → Prop
  values : Datum → Datum → Prop
  environments : Environment → Environment → Prop
  errors : Error → Error → Prop

namespace Simulation

open Evaluation

/-- Two values that are called alike: procedures of the same name and parameters that evaluate the
same expression, or values that are no procedures. -/
inductive CalledAlike (code : Datum → Prop) : Datum → Datum → Prop
  | procedures {name : Option Name} {parameters : List Name} {body other : List Datum} :
      (∀ parameter ∈ parameters, code (.symbol parameter)) → other.head? = body.head? →
      (∀ expression ∈ body.head?, code expression) →
      CalledAlike code (.procedure name parameters body) (.procedure name parameters other)
  | others {a b : Datum} : (∀ name parameters body, a ≠ .procedure name parameters body) →
      (∀ name parameters body, b ≠ .procedure name parameters body) → CalledAlike code a b

/-- What the steps of evaluation need of the relations. -/
structure Lawful (S : Simulation) : Prop where
  member {items : List Datum} : S.code (.list items) → ∀ item ∈ items, S.code item
  /-- Quoted data and literals are values as they are written. -/
  self {datum : Datum} : S.code datum → S.values datum datum
  definition {name : Name} {parameters body : List Datum} {names : List Name} :
    S.code (.list (.symbol "define" :: .list (.symbol name :: parameters) :: body)) →
    parameterNames name parameters = .ok names →
    S.values (.procedure name names body) (.procedure name names body)
  condition {a b : Datum} : S.values a b → holds a = holds b
  called {a b : Datum} : S.values a b → CalledAlike S.code a b
  primitive (primitive : Primitive) {operands others : List Datum} :
    List.Forall₂ S.values operands others →
    Outcomes S.values S.errors (primitive.apply operands) (primitive.apply others)
  lookup {env other : Environment} : S.environments env other → ∀ name, S.code (.symbol name) →
    Option.Rel S.values (env.lookup? name) (other.lookup? name)
  bind {env other : Environment} {name : Name} {a b : Datum} : S.environments env other →
    S.code (.symbol name) → S.values a b → S.environments (env.bind name a) (other.bind name b)
  push {env other : Environment} : S.environments env other → S.environments env.push other.push
  /-- Where evaluation itself is stopped, it is by the same error in both runs. -/
  same {error : Error} : error.OfProgram → error.described = [] → S.errors error error
  parameter {a : Datum} (procedure : Name) : S.code a →
    S.errors (.parameter a procedure) (.parameter a procedure)
  notDefinable {a : Datum} : S.code a → S.errors (.notDefinable a) (.notDefinable a)
  foreign {value : Foreign} : S.code (.foreign value) →
    S.errors (.notEvaluable (.foreign value)) (.notEvaluable (.foreign value))
  notProcedure {a b : Datum} : S.values a b → S.errors (.notProcedure a) (.notProcedure b)
  notApplicable {head : Datum} {operands others : List Datum} : S.code head →
    List.Forall₂ S.values operands others →
    S.errors (.notApplicable head operands) (.notApplicable head others)

variable (S : Simulation)

/-- Two faults: two errors of the relation, or the same fault of another kind. -/
inductive Faults : Fault → Fault → Prop
  | reported {error other : Error} : S.errors error other →
      Faults (.reported error) (.reported other)
  | exhausted : Faults .exhausted .exhausted

/-- Yielding related outcomes and related environments wherever the environments are related. -/
def Simulates {α β : Type} (values : α → β → Prop) (computation : Evaluation α)
    (other : Evaluation β) : Prop :=
  ∀ env env', S.environments env env' →
    Outcomes values S.Faults (computation env).1 (other env').1 ∧
      S.environments (computation env).2 (other env').2

variable {S} {α β γ δ : Type} {values : α → β → Prop} {results : γ → δ → Prop}

theorem simulates_pure {a : α} {b : β} (h : values a b) :
    S.Simulates values (pure a) (pure b) :=
  fun _ _ henv => ⟨.value h, henv⟩

theorem simulates_fail {error other : Error} (h : S.errors error other) :
    S.Simulates values (fail error) (fail other) :=
  fun _ _ henv => ⟨.fault (.reported h), henv⟩

theorem simulates_ofExcept {result : Except Error α} {other : Except Error β}
    (h : Outcomes values S.errors result other) :
    S.Simulates values (ofExcept result) (ofExcept other) := by
  cases h with
  | value h => exact simulates_pure h
  | fault h => exact simulates_fail h

/-- Simulations compose along the composition of computations. -/
theorem Simulates.bind {first : Evaluation α} {other : Evaluation β} {next : α → Evaluation γ}
    {otherNext : β → Evaluation δ} (hfirst : S.Simulates values first other)
    (hnext : ∀ a b, values a b → S.Simulates results (next a) (otherNext b)) :
    S.Simulates results (first >>= next) (other >>= otherNext) := by
  intro env env' henv
  have hrelated := hfirst env env' henv
  rw [bind_apply, bind_apply]
  rcases hrun : first env with ⟨outcome, after⟩
  rcases hrun' : other env' with ⟨outcome', after'⟩
  rw [hrun, hrun'] at hrelated
  obtain ⟨houtcome, hafter⟩ := hrelated
  cases houtcome with
  | value h => exact hnext _ _ h after after' hafter
  | fault h => exact ⟨.fault h, hafter⟩

theorem simulates_get_bind {next : Environment → Evaluation α} {other : Environment → Evaluation β}
    (h : ∀ env env', S.environments env env' → S.Simulates values (next env) (other env')) :
    S.Simulates values (get >>= next) (get >>= other) :=
  fun env env' henv => h env env' henv env env' henv

/-- Operands are evaluated side by side from the left. -/
theorem simulates_mapM {step other : Datum → Evaluation Datum} {items others : List Datum}
    (h : List.Forall₂ (fun a b => S.Simulates S.values (step a) (other b)) items others) :
    S.Simulates (List.Forall₂ S.values) (items.mapM step) (others.mapM other) := by
  induction h with
  | nil => exact simulates_pure .nil
  | cons hitem _ ih =>
    rw [List.mapM_cons, List.mapM_cons]
    refine hitem.bind fun a b hvalue => ?_
    exact ih.bind fun as bs hvalues => simulates_pure (.cons hvalue hvalues)

/-- Two computations in frames of their own leave the environments as they were. -/
theorem Simulates.inFrame
    (hpush : ∀ env env', S.environments env env' → S.environments env.push env'.push)
    {computation : Evaluation α} {other : Evaluation β}
    (h : S.Simulates values computation other)
    (hextends : Keeps Environment.Extends computation)
    (hextends' : Keeps Environment.Extends other) :
    S.Simulates values (inFrame computation) (inFrame other) := by
  intro env env' henv
  rw [inFrame_apply hextends, inFrame_apply hextends']
  exact ⟨(h env.push env'.push (hpush env env' henv)).1, henv⟩

end Simulation

end SmallScheme
