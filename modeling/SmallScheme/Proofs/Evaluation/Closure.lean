import SmallScheme.Proofs.Evaluation.Invariants
import SmallScheme.Proofs.Evaluation.Primitives

/-!
# Evaluation yields computed values

An evaluation is compared with itself: `Simulation.closure` relates equal values if they are
computed. Its laws say that literals, quotations, definitions and primitives lead from written
expressions and computed values to computed values, and the general induction on evaluations does
the rest. So nothing else is ever bound or returned, in whatever frames and behind whatever error.
-/

namespace SmallScheme

/-- Primitives make computed values of computed values. -/
theorem Primitive.computed_of_apply {primitive : Primitive} {operands : List Datum} {result : Datum}
    (h : primitive.apply operands = .ok result)
    (hoperands : ∀ operand ∈ operands, operand.Computed) : result.Computed :=
  (yields_of_apply h).preserved (fun _ => .integer) .boolean (fun _ => Datum.computed_list_iff)
    hoperands

/-- A definition that is written makes a procedure of written names and expressions. -/
theorem Evaluation.computed_of_definition {head : Datum} {name : Name}
    {parameters body : List Datum} {names : List Name}
    (h : (Datum.list (head :: .list (.symbol name :: parameters) :: body)).Written)
    (hnames : parameterNames name parameters = .ok names) :
    (Datum.procedure name names body).Computed := by
  have hitems := Datum.written_list_iff.mp h
  have htarget := Datum.written_list_iff.mp
    (hitems (.list (.symbol name :: parameters)) (by simp))
  refine .procedure (Datum.written_symbol_iff.mp (htarget _ List.mem_cons_self)) ?_ ?_
  · intro parameter hparameter
    have hmem : Datum.symbol parameter ∈ parameters := by
      rw [eq_map_of_parameterNames hnames]
      exact List.mem_map_of_mem hparameter
    exact Datum.written_symbol_iff.mp (htarget _ (List.mem_cons_of_mem _ hmem))
  · intro expression hmem
    exact hitems expression (by simp [hmem])

namespace Simulation

/-- The comparison of an evaluation with itself, by what it yields. -/
def closure : Simulation where
  code := Datum.Written
  values a b := a.Computed ∧ a = b
  environments env other := env.Computed ∧ env = other
  errors a b := a.Expected ∧ a = b

/-- A procedure that is called evaluates what was written. -/
theorem calledAlike_computed {value : Datum} (h : value.Computed) :
    CalledAlike Datum.Written value value := by
  cases h with
  | procedure hname hparameters hbody =>
    refine .procedures (fun parameter hparameter => ?_) rfl fun expression hexpression => ?_
    · exact Datum.written_symbol_iff.mpr (hparameters parameter hparameter)
    · exact hbody expression (List.mem_of_mem_head? hexpression)
  | _ => exact .others (fun _ _ _ => Datum.noConfusion) fun _ _ _ => Datum.noConfusion

/-- Evaluation leads from written expressions to computed values, or to expected errors. -/
theorem invariant_computed :
    Evaluation.Invariant Datum.Written Datum.Computed Error.Expected where
  member h := Datum.written_list_iff.mp h
  self h := h.computed
  definition h hnames := Evaluation.computed_of_definition h hnames
  called h := calledAlike_computed h
  yields h hoperands := Primitive.computed_of_apply h hoperands
  fails h hoperands :=
    Primitive.expected_of_apply h fun operand hmem => (hoperands operand hmem).moderate
  about h := h.expected fun _ hvalue => hvalue.moderate.short
  foreign h := absurd rfl (h.computed.ne_foreign _)

theorem closure_lawful : closure.Lawful :=
  invariant_computed.lawful

end Simulation

end SmallScheme
