import SmallScheme.Proofs.Data.Shape
import SmallScheme.Proofs.Evaluation.Related

/-!
# Evaluation of corresponding expressions

Two expressions that correspond are evaluated in related environments. They need not be equal: it is
enough that they have the same shape all the way down, that they stand for related values where they
are quoted, and that procedures related as values are called with corresponding bodies. Then the
outcomes are related, and so are the environments behind the evaluations. There is one statement for
each form of expression, and the last one is the induction on the number of evaluations that may be
active at once.
-/

namespace SmallScheme.Simulation

open Evaluation
open Datum (SameShape)

/-- Two values that are called together: procedures of the same parameters whose first expressions
correspond and which are refused alike, or values that are no procedures. -/
inductive CalledTogether (S : Simulation) (code : Datum → Datum → Prop) : Datum → Datum → Prop
  | procedures {name otherName : Option Name} {parameters : List Name} {body other : List Datum} :
      (∀ parameter ∈ parameters, code (.symbol parameter) (.symbol parameter)) →
      Option.Rel code body.head? other.head? →
      (∀ expected given,
        S.errors (.callArity name expected given) (.callArity otherName expected given)) →
      S.errors (.emptyBody name) (.emptyBody otherName) →
      CalledTogether S code (.procedure name parameters body)
        (.procedure otherName parameters other)
  | others {a b : Datum} : (∀ name parameters body, a ≠ .procedure name parameters body) →
      (∀ name parameters body, b ≠ .procedure name parameters body) → CalledTogether S code a b

/-- What the steps of evaluation need of the relations if `code` relates the expressions. -/
structure Corresponds (S : Simulation) (code : Datum → Datum → Prop) : Prop where
  shape {a b : Datum} : code a b → SameShape code a b
  /-- Quoted data and literals are values as they are written. -/
  self {a b : Datum} : code a b → S.values a b
  definition {name : Name} {parameters others body otherBody : List Datum} {names : List Name} :
    code (.list (.symbol "define" :: .list (.symbol name :: parameters) :: body))
      (.list (.symbol "define" :: .list (.symbol name :: others) :: otherBody)) →
    parameterNames name parameters = .ok names →
    S.values (.procedure name names body) (.procedure name names otherBody)
  condition {a b : Datum} : S.values a b → holds a = holds b
  called {a b : Datum} : S.values a b → CalledTogether S code a b
  primitive (primitive : Primitive) {operands others : List Datum} :
    List.Forall₂ S.values operands others →
    Outcomes S.values S.errors (primitive.apply operands) (primitive.apply others)
  lookup {env other : Environment} : S.environments env other → ∀ name,
    code (.symbol name) (.symbol name) →
    Option.Rel S.values (env.lookup? name) (other.lookup? name)
  bind {env other : Environment} {name : Name} {a b : Datum} : S.environments env other →
    code (.symbol name) (.symbol name) → S.values a b →
    S.environments (env.bind name a) (other.bind name b)
  push {env other : Environment} : S.environments env other → S.environments env.push other.push
  /-- Where evaluation itself is stopped, it is by the same error in both runs. -/
  same {error : Error} : error.OfProgram → error.described = [] → S.errors error error
  parameter {a b : Datum} (procedure : Name) : code a b →
    S.errors (.parameter a procedure) (.parameter b procedure)
  notDefinable {a b : Datum} : code a b → S.errors (.notDefinable a) (.notDefinable b)
  foreign {a b : Foreign} : code (.foreign a) (.foreign b) →
    S.errors (.notEvaluable (.foreign a)) (.notEvaluable (.foreign b))
  notProcedure {a b : Datum} : S.values a b → S.errors (.notProcedure a) (.notProcedure b)
  notApplicable {head otherHead : Datum} {operands others : List Datum} : code head otherHead →
    List.Forall₂ S.values operands others →
    S.errors (.notApplicable head operands) (.notApplicable otherHead others)

variable {S : Simulation} {code : Datum → Datum → Prop} {rule : Rule}

theorem environments_bindAll (h : S.Corresponds code) {names : List Name}
    (hnames : ∀ name ∈ names, code (.symbol name) (.symbol name)) {operands others : List Datum}
    (hoperands : List.Forall₂ S.values operands others) {env env' : Environment}
    (henv : S.environments env env') :
    S.environments (env.bindAll names operands) (env'.bindAll names others) := by
  induction names generalizing operands others env env' with
  | nil => exact henv
  | cons name names ih =>
    cases hoperands with
    | nil => exact henv
    | cons hvalue hvalues =>
      have hname := hnames name List.mem_cons_self
      exact ih (fun other hother => hnames other (List.mem_cons_of_mem _ hother)) hvalues
        (h.bind henv hname hvalue)

/-- Corresponding parameters have the same names, or are refused alike. -/
theorem outcomes_parameterNames (h : S.Corresponds code) (procedure : Name)
    {parameters others : List Datum} (hcode : List.Forall₂ code parameters others) :
    Outcomes Eq S.errors (parameterNames procedure parameters)
      (parameterNames procedure others) := by
  rw [← List.forall₂_eq_eq_eq]
  refine Outcomes.mapM (hcode.imp fun a b hparameter => ?_)
  have hrefused := h.parameter procedure hparameter
  cases h.shape hparameter with
  | symbol => exact .value rfl
  | boolean | integer | list | procedure | foreign => exact .fault hrefused

/-- Corresponding lists call for the same form. -/
theorem ofHead?_eq (h : S.Corresponds code) {head other : Datum} (hhead : code head other) :
    Form.ofHead? head = Form.ofHead? other := by
  cases h.shape hhead <;> rfl

/-- Quotations yield what stands in them. -/
theorem simulates_quotation (h : S.Corresponds code) {rest others : List Datum}
    (hcode : List.Forall₂ code rest others) :
    S.Simulates S.values (quotation rest) (quotation others) := by
  rcases hcode with _ | ⟨hdatum, _ | _⟩
  · exact simulates_fail (h.same trivial rfl)
  · exact simulates_pure (h.self hdatum)
  · exact simulates_fail (h.same trivial rfl)

/-- Binding related values keeps the environments related. -/
theorem simulates_bind (h : S.Corresponds code) {name : Name}
    (hname : code (.symbol name) (.symbol name)) {a b : Datum} (hvalue : S.values a b) :
    S.Simulates S.values (do bind name a; return a) (do bind name b; return b) :=
  fun _ _ henv => ⟨.value hvalue, h.bind henv hname hvalue⟩

/-- Corresponding definitions of procedures bind related values, or are refused alike. -/
theorem simulates_definition_procedure (h : S.Corresponds code) {name : Name}
    {parameters others body otherBody : List Datum}
    (hcode : code (.list (.symbol "define" :: .list (.symbol name :: parameters) :: body))
      (.list (.symbol "define" :: .list (.symbol name :: others) :: otherBody)))
    (hname : code (.symbol name) (.symbol name))
    (hparameters : List.Forall₂ code parameters others) :
    S.Simulates S.values (definition rule (.list (.symbol name :: parameters) :: body))
      (definition rule (.list (.symbol name :: others) :: otherBody)) := by
  have houtcomes := outcomes_parameterNames h name hparameters
  dsimp only [definition]
  rcases hnames : parameterNames name parameters with error | names <;>
    rcases hothers : parameterNames name others with other | otherNames <;>
    rw [hnames, hothers] at houtcomes <;> cases houtcomes
  · next herror => exact simulates_fail herror
  · next heq => exact simulates_bind h hname (heq ▸ h.definition hcode hnames)

section Rules

variable (h : S.Corresponds code)
  (hrule : ∀ a b, code a b → S.Simulates S.values (rule a) (rule b))
include h hrule

theorem simulates_conditional {rest others : List Datum} (hcode : List.Forall₂ code rest others) :
    S.Simulates S.values (conditional rule rest) (conditional rule others) := by
  have harity : S.Simulates S.values (fail .ifArity) (fail .ifArity) :=
    simulates_fail (h.same trivial rfl)
  rcases hcode with _ | ⟨hcondition, _ | ⟨hconsequent, _ | ⟨halternative, _ | _⟩⟩⟩
  · exact harity
  · exact harity
  · refine (hrule _ _ hcondition).bind fun a b hvalue => ?_
    rw [h.condition hvalue]
    split
    · exact hrule _ _ hconsequent
    · exact simulates_fail (h.same trivial rfl)
  · refine (hrule _ _ hcondition).bind fun a b hvalue => ?_
    rw [h.condition hvalue]
    split
    · exact hrule _ _ hconsequent
    · exact hrule _ _ halternative
  · exact harity

theorem simulates_definition {rest others : List Datum}
    (hcode : code (.list (.symbol "define" :: rest)) (.list (.symbol "define" :: others)))
    (hrest : List.Forall₂ code rest others) :
    S.Simulates S.values (definition rule rest) (definition rule others) := by
  rcases hrest with _ | ⟨htarget, hbody⟩
  · exact simulates_fail (h.same trivial rfl)
  · have hrefused : S.Simulates S.values _ _ := simulates_fail (h.notDefinable htarget)
    -- Only a symbol can be defined, or a list that a symbol begins; corresponding targets agree on
    -- which of these they are.
    cases h.shape htarget with
    | symbol name =>
      rcases hbody with _ | ⟨hexpression, _ | _⟩
      · exact simulates_fail (h.same trivial rfl)
      · refine (hrule _ _ hexpression).bind fun a b hvalue => ?_
        exact simulates_bind h htarget hvalue
      · exact simulates_fail (h.same trivial rfl)
    | list hparts =>
      rcases hparts with _ | ⟨hname, hparameters⟩
      · exact hrefused
      · cases h.shape hname with
        | symbol name => exact simulates_definition_procedure h hcode hname hparameters
        | boolean | integer | list | procedure | foreign => exact hrefused
    | boolean | integer | procedure | foreign => exact hrefused

variable (hextends : ∀ expression, Keeps Environment.Extends (rule expression))
include hextends

/-- Procedures of the same parameters are called with related outcomes if their first expressions
correspond. -/
theorem simulates_call {name otherName : Option Name} {parameters : List Name}
    {body other operands others : List Datum}
    (hparameters : ∀ parameter ∈ parameters, code (.symbol parameter) (.symbol parameter))
    (hbody : Option.Rel code body.head? other.head?)
    (harity : ∀ expected given,
      S.errors (.callArity name expected given) (.callArity otherName expected given))
    (hempty : S.errors (.emptyBody name) (.emptyBody otherName))
    (hoperands : List.Forall₂ S.values operands others) :
    S.Simulates S.values (call rule name parameters body operands)
      (call rule otherName parameters other others) := by
  unfold call
  rw [hoperands.length_eq]
  split
  · exact simulates_fail (harity _ _)
  · rcases body with _ | ⟨expression, rest⟩ <;>
      rcases other with _ | ⟨otherExpression, otherRest⟩ <;> cases hbody
    · exact simulates_fail hempty
    · next hcode =>
      have hbound : S.Simulates (fun _ _ : PUnit => True) (modify (·.bindAll parameters operands))
          (modify (·.bindAll parameters others)) := fun env env' henv =>
        ⟨.value trivial, environments_bindAll h hparameters hoperands henv⟩
      refine Simulates.inFrame (fun _ _ => h.push) ?_ (body_extends hextends _ _ _)
        (body_extends hextends _ _ _)
      exact hbound.bind fun _ _ _ => hrule _ _ hcode

/-- An application has related outcomes, whatever the name of its operator means. -/
theorem simulates_apply {head otherHead : Datum} (hhead : code head otherHead)
    {operands others : List Datum} (hoperands : List.Forall₂ S.values operands others) :
    S.Simulates S.values (apply rule head operands) (apply rule otherHead others) := by
  have hrefused : S.Simulates S.values _ _ := simulates_fail (h.notApplicable hhead hoperands)
  cases h.shape hhead with
  | symbol name =>
    refine simulates_get_bind fun env env' henv => ?_
    rcases rel_cases (h.lookup henv name hhead) with
      ⟨hvalue, hvalue'⟩ | ⟨a, b, hvalue, hvalue', hvalues⟩
    · -- Neither environment binds the name, so both runs come to the same primitive.
      rw [hvalue, hvalue']
      dsimp only
      split
      · exact simulates_ofExcept (h.primitive _ hoperands)
      · exact simulates_fail (h.same trivial rfl)
    · rw [hvalue, hvalue']
      cases h.called hvalues with
      | procedures hparameters hbody harity hempty =>
        exact simulates_call h hrule hextends hparameters hbody harity hempty hoperands
      | others ha hb =>
        cases a with
        | procedure => exact absurd rfl (ha _ _ _)
        | _ =>
          cases b with
          | procedure => exact absurd rfl (hb _ _ _)
          | _ => exact simulates_fail (h.notProcedure hvalues)
  | boolean | integer | list | procedure | foreign => exact hrefused

/-- One step of evaluation has related outcomes if the evaluations inside it have. -/
theorem simulates_step {a b : Datum} (hcode : code a b) :
    S.Simulates S.values (step rule a) (step rule b) := by
  cases h.shape hcode with
  | symbol name =>
    refine simulates_get_bind fun env env' henv => simulates_ofExcept ?_
    rcases rel_cases (h.lookup henv name hcode) with
      ⟨hvalue, hvalue'⟩ | ⟨a, b, hvalue, hvalue', hvalues⟩
    · simpa only [Environment.resolve, hvalue, hvalue'] using .fault (h.same trivial rfl)
    · simpa only [Environment.resolve, hvalue, hvalue'] using .value hvalues
  | list hitems =>
    rcases hitems with _ | ⟨hhead, hrest⟩
    · exact simulates_pure (h.self hcode)
    · next head otherHead rest otherRest =>
      dsimp only [step]
      have hforms := ofHead?_eq h hhead
      rw [hforms]
      split
      · next form hform =>
        cases form with
        | quotation => exact simulates_quotation h hrest
        | conditional => exact simulates_conditional h hrule hrest
        | definition =>
          obtain rfl := ofHead?_eq_some_definition hform
          obtain rfl := ofHead?_eq_some_definition (hforms.trans hform)
          exact simulates_definition h hrule hcode hrest
      · refine (simulates_mapM (hrest.imp hrule)).bind fun operands others hoperands => ?_
        exact simulates_apply h hrule hextends hhead hoperands
  | foreign => exact simulates_fail (h.foreign hcode)
  | boolean | integer | procedure => exact simulates_pure (h.self hcode)

end Rules

/-- Evaluating corresponding expressions in related environments, with as many evaluations active at
once, has related outcomes and leaves related environments. -/
theorem Corresponds.within (h : S.Corresponds code) (levels : Nat) {a b : Datum}
    (hcode : code a b) : S.Simulates S.values (within levels a) (within levels b) := by
  induction levels generalizing a b with
  | zero => exact fun _ _ henv => ⟨.fault .exhausted, henv⟩
  | succ levels ih =>
    exact simulates_step h (fun a b hcode => ih hcode) (within_extends levels) hcode

end SmallScheme.Simulation
