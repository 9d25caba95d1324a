import SmallScheme.Proofs.Evaluation.Correspondence

/-!
# Evaluation in related environments

The same expression is evaluated in two environments. The laws of a simulation are enough for its
relations to hold behind the two evaluations: the outcomes are related, and so are the environments.
This is the case of corresponding expressions where each expression corresponds to itself.
-/

namespace SmallScheme.Simulation

open Evaluation

variable {S : Simulation}

/-- What is called alike is called together. -/
theorem Lawful.calledTogether (hlawful : S.Lawful) {a b : Datum} (h : CalledAlike S.code a b) :
    CalledTogether S (fun a b => S.code a ∧ a = b) a b := by
  cases h with
  | @procedures name parameters body other hparameters hhead hbody =>
    refine .procedures (fun parameter hmem => ⟨hparameters parameter hmem, rfl⟩) ?_
      (fun _ _ => hlawful.same trivial rfl) (hlawful.same trivial rfl)
    rw [hhead]
    cases hfirst : body.head? with
    | none => exact .none
    | some expression => exact .some ⟨hbody expression hfirst, rfl⟩
  | others ha hb => exact .others ha hb

/-- In a lawful simulation each expression corresponds to itself. -/
theorem Lawful.corresponds (hlawful : S.Lawful) :
    S.Corresponds fun a b => S.code a ∧ a = b where
  shape := by
    rintro a b ⟨hcode, rfl⟩
    exact .self fun items heq item hitem => ⟨hlawful.member (heq ▸ hcode) item hitem, rfl⟩
  self := by
    rintro a b ⟨hcode, rfl⟩
    exact hlawful.self hcode
  definition := by
    rintro name parameters others body otherBody names ⟨hcode, heq⟩ hnames
    cases heq
    exact hlawful.definition hcode hnames
  condition := hlawful.condition
  called h := hlawful.calledTogether (hlawful.called h)
  primitive primitive _ _ := hlawful.primitive primitive
  lookup henv name hname := hlawful.lookup henv name hname.1
  bind henv hname hvalue := hlawful.bind henv hname.1 hvalue
  push := hlawful.push
  same := hlawful.same
  parameter := by
    rintro a b procedure ⟨hcode, rfl⟩
    exact hlawful.parameter procedure hcode
  notDefinable := by
    rintro a b ⟨hcode, rfl⟩
    exact hlawful.notDefinable hcode
  foreign := by
    rintro a b ⟨hcode, heq⟩
    cases heq
    exact hlawful.foreign hcode
  notProcedure := hlawful.notProcedure
  notApplicable := by
    rintro head otherHead operands others ⟨hcode, rfl⟩ hoperands
    exact hlawful.notApplicable hcode hoperands

/-- Evaluating the same expression in related environments, with as many evaluations active at
once, has related outcomes and leaves related environments. -/
theorem simulates_within (hlawful : S.Lawful) (levels : Nat) {expression : Datum}
    (hcode : S.code expression) :
    S.Simulates S.values (within levels expression) (within levels expression) :=
  hlawful.corresponds.within levels ⟨hcode, rfl⟩

end SmallScheme.Simulation
