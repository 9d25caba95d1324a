import SmallScheme.Proofs.Evaluation.Closure
import SmallScheme.Proofs.Interpreter.Invariants

/-!
# Evaluation among moderate numbers

A host may bind numbers that are greater than any word. Arithmetic refuses their sums and products,
but an overflow is worded with the exact result, and this may have too many digits to be written.
That cannot happen as long as all numbers are moderate: then evaluation ends with an error, if it is
stopped, and leaves moderate numbers only (`Interpreter.invariant_moderate`). Words are moderate.
-/

namespace SmallScheme

/-- Binding names to moderate values only. -/
def Environment.Moderate (env : Environment) : Prop :=
  env.Binds Datum.Moderate

/-- Environments that programs have bound names in are moderate. -/
theorem Environment.Computed.moderate {env : Environment} (h : env.Computed) : env.Moderate :=
  fun frame hframe binding hbinding => (h frame hframe binding hbinding).moderate

namespace Primitive

variable {primitive : Primitive} {operands : List Datum}

/-- Primitives make moderate values of moderate values. -/
theorem moderate_of_apply {result : Datum} (h : primitive.apply operands = .ok result)
    (hoperands : ∀ operand ∈ operands, operand.Moderate) : result.Moderate :=
  (yields_of_apply h).preserved (fun _ hfits => .integer (Numeral.moderate_of_fits hfits)) .boolean
    (fun _ => Datum.moderate_list_iff) hoperands

end Primitive

/-- Evaluation leads from moderate expressions to moderate values, or to errors that can be
written. -/
theorem Evaluation.invariant_moderate :
    Invariant Datum.Moderate Datum.Moderate Error.Writable where
  member h := Datum.moderate_list_iff.mp h
  self h := h
  definition h _ := .procedure fun expression hmem =>
    Datum.moderate_list_iff.mp h expression (by simp [hmem])
  called := by
    intro value h
    cases h with
    | procedure hbody =>
      exact .procedures (fun parameter _ => .symbol parameter) rfl fun expression hexpression =>
        hbody expression (List.mem_of_mem_head? hexpression)
    | _ => exact .others (fun _ _ _ => Datum.noConfusion) fun _ _ _ => Datum.noConfusion
  yields h hoperands := Primitive.moderate_of_apply h hoperands
  fails h hoperands := (Primitive.expected_of_apply h hoperands).writable
  about h := (h.expected fun _ => Datum.Moderate.short).writable
  foreign h := fun datum hmem => (List.mem_singleton.mp hmem) ▸ h.short

/-- Among moderate numbers evaluations lead to errors only, and bind none but moderate values. -/
theorem Interpreter.invariant_moderate (limits : Limits) :
    Invariant limits Datum.Moderate Environment.Moderate Datum.Moderate
      fun fault => ∃ error, fault = .reported error ∧ error.Writable :=
  Evaluation.invariant_moderate.outside (fun _ => id) limits

end SmallScheme
