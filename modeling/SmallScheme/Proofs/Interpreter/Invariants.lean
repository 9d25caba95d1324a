import SmallScheme.Proofs.Evaluation.Invariants
import SmallScheme.Proofs.Interpreter.Limits

/-!
# What runs preserve

What evaluation preserves is preserved outside of evaluation as well, if its errors can be worded
(`Evaluation.Invariant.outside`), and so it is preserved by runs (`Interpreter.Invariant.run`).
-/

namespace SmallScheme

namespace Interpreter

variable {α : Type} {limits : Limits} {use : Datum → Except Fault α}

/-- What evaluations keep to: from such expressions in such environments they lead to such values
or such faults, and to an environment of the same kind. -/
structure Invariant (limits : Limits) (code : Datum → Prop) (sound : Environment → Prop)
    (values : Datum → Prop) (faults : Fault → Prop) : Prop where
  value {expression : Datum} {env : Environment} {value : Datum} : code expression → sound env →
    (evaluate limits expression env).1 = .ok value → values value
  fault {expression : Datum} {env : Environment} {fault : Fault} : code expression → sound env →
    (evaluate limits expression env).1 = .error fault → faults fault
  environment {expression : Datum} {env : Environment} : code expression → sound env →
    sound (evaluate limits expression env).2

namespace Invariant

variable {code values : Datum → Prop} {sound : Environment → Prop} {faults : Fault → Prop}
  {expressions : List Datum} {env : Environment}

/-- What evaluations keep to is kept by a run, if the use of values is stopped by such faults as
well. -/
theorem run (h : Invariant limits code sound values faults)
    (huse : ∀ value fault, values value → use value = .error fault → faults fault)
    (last : Option Fault) (hcode : ∀ expression ∈ expressions, code expression)
    (henv : sound env) :
    (∀ fault, (Interpreter.run limits use last expressions env).fault = some fault →
      faults fault ∨ last = some fault) ∧
      sound (Interpreter.run limits use last expressions env).environment := by
  induction expressions generalizing env with
  | nil => exact ⟨fun fault => Or.inr, henv⟩
  | cons expression rest ih =>
    obtain ⟨hfirst, hrest⟩ := List.forall_mem_cons.mp hcode
    have hafter := h.environment hfirst henv
    rcases hused : (evaluate limits expression env).1.bind use with cause | result
    · rw [run_cons_of_error last rest hused]
      refine ⟨?_, hafter⟩
      rintro _ ⟨⟩
      left
      rcases hvalue : (evaluate limits expression env).1 with other | value
      · rw [hvalue] at hused
        cases hused
        exact h.fault hfirst henv hvalue
      · rw [hvalue] at hused
        exact huse value cause (h.value hfirst henv hvalue) hused
    · rw [run_cons_of_ok last rest hused]
      exact ih hrest hafter

/-- The results of a run are made of values that evaluations lead to. -/
theorem results {good : α → Prop} (h : Invariant limits code sound values faults)
    (hgood : ∀ value result, values value → use value = .ok result → good result)
    (last : Option Fault) (hcode : ∀ expression ∈ expressions, code expression)
    (henv : sound env) :
    ∀ result ∈ (Interpreter.run limits use last expressions env).results, good result := by
  induction expressions generalizing env with
  | nil => exact fun result hmem => absurd hmem List.not_mem_nil
  | cons expression rest ih =>
    obtain ⟨hfirst, hrest⟩ := List.forall_mem_cons.mp hcode
    rcases hused : (evaluate limits expression env).1.bind use with cause | result
    · rw [run_cons_of_error last rest hused]
      exact fun result hmem => absurd hmem List.not_mem_nil
    · rw [run_cons_of_ok last rest hused]
      obtain ⟨value, hvalue, hresult⟩ := exists_of_bind_eq_ok hused
      exact List.forall_mem_cons.mpr ⟨hgood value result (h.value hfirst henv hvalue) hresult,
        ih hrest (h.environment hfirst henv)⟩

end Invariant

section Outside

variable {expression : Datum} {env : Environment} {fault : Fault}

theorem evaluate_eq_ok {value : Datum} (h : (evaluate limits expression env).1 = .ok value) :
    (Evaluation.within limits.evaluating expression env).1 = .ok value := by
  change (Evaluation.within limits.evaluating expression env).1.mapError (settle limits) =
    .ok value at h
  cases hrun : (Evaluation.within limits.evaluating expression env).1 with
  | error cause =>
    rw [hrun] at h
    cases h
  | ok result =>
    rw [hrun] at h
    exact congrArg Except.ok (Except.ok.inj h)

theorem evaluate_eq_error (h : (evaluate limits expression env).1 = .error fault) :
    ∃ cause, (Evaluation.within limits.evaluating expression env).1 = .error cause ∧
      settle limits cause = fault := by
  change (Evaluation.within limits.evaluating expression env).1.mapError (settle limits) =
    .error fault at h
  cases hrun : (Evaluation.within limits.evaluating expression env).1 with
  | error cause =>
    rw [hrun] at h
    exact ⟨cause, rfl, Except.error.inj h⟩
  | ok result =>
    rw [hrun] at h
    cases h

/-- Outside of evaluation an error that can be worded is still one, or an error of depth in its
place. -/
theorem exists_settle_eq_reported {errors : Error → Prop} (limits : Limits)
    (hdepth : ∀ activity, errors (.tooDeep activity))
    (hwritable : ∀ error, errors error → error.Writable)
    (h : fault = .exhausted ∨ ∃ error, fault = .reported error ∧ errors error) :
    ∃ error, settle limits fault = .reported error ∧ errors error := by
  rcases h with rfl | ⟨error, rfl, herror⟩
  · exact ⟨.tooDeep .evaluating, rfl, hdepth .evaluating⟩
  · rcases settle_cases limits error with hsettle | ⟨activity, hactivity⟩ | ⟨_, hlong⟩
    · exact ⟨error, hsettle, herror⟩
    · exact ⟨.tooDeep activity, Option.some.inj hactivity, hdepth activity⟩
    · exact absurd (hwritable error herror) hlong

end Outside

end Interpreter

/-- What evaluation keeps to is kept outside of it, if its errors can be worded. -/
theorem Evaluation.Invariant.outside {code values : Datum → Prop} {errors : Error → Prop}
    (h : Invariant code values errors) (hwritable : ∀ error, errors error → error.Writable)
    (limits : Limits) :
    Interpreter.Invariant limits code (Environment.Binds values) values
      fun fault => ∃ error, fault = .reported error ∧ errors error where
  value hexpression henv hvalue :=
    (h.within limits.evaluating hexpression henv).1 _ (Interpreter.evaluate_eq_ok hvalue)
  fault hexpression henv hfault := by
    obtain ⟨cause, hcause, rfl⟩ := Interpreter.evaluate_eq_error hfault
    exact Interpreter.exists_settle_eq_reported limits
      (fun _ => h.about (.of_described trivial rfl)) hwritable
      ((h.within limits.evaluating hexpression henv).2.1 cause hcause)
  environment hexpression henv := (h.within limits.evaluating hexpression henv).2.2

/-- Whatever evaluation begins with, it comes to values or errors. -/
theorem Evaluation.invariant_any : Invariant (fun _ => True) (fun _ => True) fun _ => True where
  member _ _ _ := trivial
  self _ := trivial
  definition _ _ := trivial
  called {value} _ := by
    cases value with
    | procedure => exact .procedures (fun _ _ => trivial) rfl fun _ _ => trivial
    | _ => exact .others (fun _ _ _ => Datum.noConfusion) fun _ _ _ => Datum.noConfusion
  yields _ _ := trivial
  fails _ _ := trivial
  about _ := trivial
  foreign _ := trivial

/-- Being an error, or the fault of a number that is too long. -/
def Fault.Ordinary (fault : Fault) : Prop :=
  (∃ error, fault = .reported error) ∨ fault = .numberTooLong

/-- Whatever an evaluation begins with, an ordinary fault is all that can stop it. -/
theorem Interpreter.invariant_ordinary (limits : Limits) :
    Invariant limits (fun _ => True) (fun _ => True) (fun _ => True) Fault.Ordinary where
  value _ _ _ := trivial
  fault {expression env fault} _ _ hfault := by
    obtain ⟨cause, hcause, rfl⟩ := evaluate_eq_error hfault
    have henv : env.Binds fun _ => True := fun _ _ _ _ => trivial
    rcases (Evaluation.invariant_any.within limits.evaluating trivial henv).2.1 cause hcause with
      rfl | ⟨error, rfl, _⟩
    · exact Or.inl ⟨_, rfl⟩
    · rcases settle_cases limits error with hsettle | ⟨activity, hactivity⟩ | ⟨hsettle, _⟩
      · exact Or.inl ⟨error, hsettle⟩
      · exact Or.inl ⟨_, Option.some.inj hactivity⟩
      · exact Or.inr hsettle
  environment _ _ := trivial

end SmallScheme
