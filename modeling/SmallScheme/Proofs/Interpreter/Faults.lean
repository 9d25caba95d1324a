import SmallScheme.Proofs.Interpreter.Values
import SmallScheme.Proofs.Reader.Faults

/-!
# What ends a run

A run that begins in an environment of computed values ends with an expected error, if with any: the
stack of frames is never left, nothing but names is bound, and nothing is evaluated that no program
can write (`interpret_expected`). Only a numeral that is too long can stop it otherwise
(`fault_of_evaluateAll`).
-/

namespace SmallScheme

/-- What is written is stopped by expected errors only, or for want of levels. -/
theorem Evaluation.expected_of_within {levels : Nat} {expression : Datum} {env : Environment}
    {fault : Fault} (hexpression : expression.Written) (henv : env.Computed)
    (h : (within levels expression env).1 = .error fault) :
    fault = .exhausted ∨ fault.Expected := by
  obtain ⟨houtcome, _⟩ := Simulation.simulates_within Simulation.closure_lawful levels hexpression
    env env ⟨henv, rfl⟩
  rw [h] at houtcome
  cases houtcome with
  | fault hfault =>
    cases hfault with
    | reported herror => exact Or.inr ⟨_, rfl, herror.1⟩
    | exhausted => exact Or.inl rfl

namespace Interpreter

variable {limits : Limits} {env : Environment} {fault : Fault}

/-- A text ends with an expected error, or at a numeral that is too long. -/
theorem fault_of_evaluateAll {text : List Char} (henv : env.Computed)
    (h : (evaluateAll limits text env).fault = some fault) :
    fault.Expected ∨ (∃ count, fault = .numeralTooLong count) ∧ HasLongNumeral text := by
  have hcollect : ∀ value fault, Datum.Computed value → Except.ok value = .error fault →
      Fault.Expected fault := nofun
  obtain ⟨hfault, _⟩ := (invariant_computed limits).run hcollect (Program.ofText limits text).fault
    Program.written_of_mem henv
  exact (hfault fault h).elim Or.inl Program.fault_cases

/-- Whatever texts have been interpreted one after the other in a new environment, and however each
of them has ended: a further text does not end with an error of a misused environment, nor because
something that is no expression came to be evaluated, and the same holds of each evaluation inside
of it. No foreign value, for which alone there is no program text, stands anywhere in a value that
the text yields. -/
theorem interpret_expected (limits : Limits) (texts : List (List Char)) :
    let env := behind limits texts .empty
    (∀ text error, (evaluateAll limits text env).fault = some (.reported error) →
      error.kind ≠ .environment ∧ ∀ expression, error ≠ .notEvaluable expression) ∧
    (∀ levels (expression : Datum) (inner : Environment) error, expression.Written →
      inner.Computed → (Evaluation.within levels expression inner).1 = .error (.reported error) →
      error.kind ≠ .environment ∧ ∀ culprit, error ≠ .notEvaluable culprit) ∧
    ∀ text value, value ∈ (evaluateAll limits text env).results ∨
        (interpret limits text env).1 = .ok value →
      ∀ foreign, ¬ Datum.Inside (.foreign foreign) value := by
  intro env
  have henv : env.Computed := behind_computed texts Environment.computed_empty
  refine ⟨fun text error hfault => ?_, fun levels expression inner error hexpression hinner h => ?_,
    fun text value hvalue foreign => ?_⟩
  · rcases fault_of_evaluateAll henv hfault with ⟨_, ⟨⟩, hexpected⟩ | ⟨⟨_, ⟨⟩⟩, _⟩
    exact hexpected.internal
  · rcases Evaluation.expected_of_within hexpression hinner h with hexhausted | ⟨_, ⟨⟩, hexpected⟩
    · cases hexhausted
    · exact hexpected.internal
  · have hcomputed : value.Computed := by
      rcases hvalue with hmem | hlast
      · exact (evaluateAll_computed text henv).1 value hmem
      · exact computed_of_interpret henv hlast
    exact hcomputed.not_inside_foreign foreign

end Interpreter

end SmallScheme
