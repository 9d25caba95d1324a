import SmallScheme.Proofs.Evaluation.Congruence
import SmallScheme.Proofs.Evaluation.Moderate
import SmallScheme.Proofs.Interpreter.Limits
import SmallScheme.Proofs.Printer.Writing

/-!
# Bodies beyond their first expression

A call evaluates the first expression of a body, and the other ones show up in descriptions only. So
two procedures that differ in nothing else cannot be told apart by any program, wherever they are
bound, passed or put into lists: evaluation has the same outcome up to such procedures, prints alike
and leaves the same environment up to such procedures (`Evaluation.within_inert`).

Only a host can come upon the difference. If it puts a number that is too long into a body, an error
that shows the body cannot be worded (`Evaluation.evaluate_inert_numberTooLong`).
-/

namespace SmallScheme

open Datum (Congruence SameShape)

/-- Being the same but for the expressions that stand in bodies behind the first one. -/
inductive Datum.SameInCalls : Datum → Datum → Prop
  | same (datum : Datum) : SameInCalls datum datum
  | list {items others : List Datum} : List.Forall₂ SameInCalls items others →
      SameInCalls (.list items) (.list others)
  | procedure {name : Option Name} {parameters : List Name} {body other : List Datum} :
      body.head? = other.head? →
      SameInCalls (.procedure name parameters body) (.procedure name parameters other)

namespace Datum

variable {a b : Datum} {items others : List Datum}

theorem congruence_sameInCalls : Congruence SameInCalls where
  refl := .same
  shape h := by
    cases h with
    | same => exact .self fun _ _ item _ => .same item
    | list hitems => exact .list hitems
    | procedure => exact .procedure
  list := .list

theorem printAll_cons_cons (first second : Datum) (rest : List Datum) :
    printAll (first :: second :: rest) = first.print ++ " " ++ printAll (second :: rest) := by
  rw [printAll]
  exact List.cons_ne_nil _ _

/-- Rows are printed alike if their members are. -/
theorem printAll_eq (h : List.Forall₂ (fun a b => a.print = b.print) items others) :
    printAll items = printAll others := by
  induction h with
  | nil => rfl
  | cons hprint hrest ih =>
    cases hrest with
    | nil => rw [printAll, printAll, hprint]
    | cons => rw [printAll_cons_cons, printAll_cons_cons, hprint, ih]

/-- Lists are printed alike if their members are the same in calls and printed alike. -/
theorem print_list_eq
    (h : List.Forall₂ (fun a b => SameInCalls a b ∧ a.print = b.print) items others) :
    (Datum.list items).print = (Datum.list others).print := by
  have hquotation {head other datum otherDatum : Datum} (hhead : SameInCalls head other)
      (hquote : head = .symbol "quote" ∨ other = .symbol "quote")
      (hprint : datum.print = otherDatum.print) :
      (Datum.list [head, datum]).print = (Datum.list [other, otherDatum]).print := by
    obtain rfl : head = other := by
      rcases hquote with rfl | rfl <;> cases hhead <;> rfl
    obtain rfl : head = .symbol "quote" := hquote.elim id id
    rw [print, print, hprint]
  rcases print_list_cases items with ⟨datum, rfl, _⟩ | hprint
  · rcases h with _ | ⟨hhead, _ | ⟨hdatum, _ | _⟩⟩
    exact hquotation hhead.1 (Or.inl rfl) hdatum.2
  · rcases print_list_cases others with ⟨datum, rfl, _⟩ | hother
    · rcases h with _ | ⟨hhead, _ | ⟨hdatum, _ | _⟩⟩
      exact hquotation hhead.1 (Or.inr rfl) hdatum.2
    · rw [hprint, hother, printAll_eq (h.imp fun _ _ hmember => hmember.2)]

/-- What is the same in calls is printed alike. -/
theorem SameInCalls.print_eq (h : SameInCalls a b) : a.print = b.print := by
  induction a generalizing b with
  | list items ih =>
    cases h with
    | same => rfl
    | list hitems =>
      refine print_list_eq (forall₂_imp_of_mem (fun item hitem other hmember => ?_) hitems)
      exact ⟨hmember, ih item hitem hmember⟩
  | procedure name parameters body =>
    cases h with
    | same => rfl
    | procedure => cases name <;> rfl
  | boolean | integer | symbol | foreign =>
    cases h
    rfl

theorem SameInCalls.print?_eq (h : SameInCalls a b) (limits : Limits) :
    a.print? limits = b.print? limits := by
  rw [print?, print?, congruence_sameInCalls.printingObstacle?_eq h, h.print_eq]

end Datum

/-- What keeps a fault from being worded if it is an error, be it depth or too long a number. -/
def Fault.obstacle? (limits : Limits) : Fault → Option Fault
  | .reported error => error.obstacle? limits
  | _ => none

namespace Interpreter

/-- Two errors of the same class that show no number that is too long are settled alike, unless one
of them shows data that are nested too deeply. -/
theorem settle_sameClass_of_writable {error other : Error} (hkind : error.kind = other.kind)
    (herror : error.Writable) (hother : other.Writable) (limits : Limits) :
    EndsByDepth (some (settle limits (.reported error))) ∨
      EndsByDepth (some (settle limits (.reported other))) ∨
      (settle limits (.reported error)).SameClass (settle limits (.reported other)) := by
  rcases settle_cases limits error with hself | hdepth | ⟨_, hlong⟩
  · rcases settle_cases limits other with hotherSelf | hdepth | ⟨_, hlong⟩
    · rw [hself, hotherSelf]
      exact Or.inr (Or.inr (.reported hkind))
    · exact Or.inr (Or.inl hdepth)
    · exact absurd hother hlong
  · exact Or.inl hdepth
  · exact absurd herror hlong

end Interpreter

namespace Evaluation

open Interpreter (EndsByDepth settle)

theorem comparison_sameInCalls : Comparison (· = ·) Datum.SameInCalls where
  expressions := Datum.congruence_eq
  results := Datum.congruence_sameInCalls
  self := by
    rintro a _ rfl
    exact .same a
  definition h := by
    obtain rfl := List.forall₂_eq_eq_eq ▸ h
    exact .same _
  called h := by
    have hsame (body : List Datum) : Option.Rel (· = ·) body.head? body.head? :=
      rel_head? (Datum.congruence_eq.refl_all body)
    cases h with
    | same => exact ⟨rfl, hsame _⟩
    | procedure hhead => exact ⟨rfl, hhead ▸ hsame _⟩

/-- Among moderate numbers, the error that an evaluation ends with can be written. -/
theorem writable_of_within {levels : Nat} {expression : Datum} {env : Environment} {error : Error}
    (hexpression : expression.Moderate) (henv : env.Moderate)
    (h : (within levels expression env).1 = .error (.reported error)) : error.Writable := by
  rcases (invariant_moderate.within levels hexpression henv).2.1 _ h with
    hexhausted | ⟨_, hreported, hwritable⟩
  · cases hexhausted
  · cases hreported
    exact hwritable

/-- The expressions of bodies behind the first one are inert. Let two environments have the same
frames up to such expressions. Then every expression has the same outcome in both, with as many
evaluations active at once: values that are the same up to such expressions and printed alike, or
errors of the same class, which are also settled alike if the same keeps both from being worded, or
nothing does. And behind it the environments again have the same frames up to such expressions.

Descriptions show whole bodies. So where one error is worded and the other is not, one of them shows
data that are nested too deeply, or numbers that are not moderate stand in the expression or are
bound. -/
theorem within_inert (levels : Nat) (expression : Datum) {env other : Environment}
    (henv : env.Related Datum.SameInCalls other) :
    Outcomes
        (fun a b => a.SameInCalls b ∧ a.print = b.print ∧
          ∀ limits, a.print? limits = b.print? limits)
        (fun fault otherFault => fault.SameClass otherFault ∧
          ∀ limits, fault.obstacle? limits = otherFault.obstacle? limits →
            (settle limits fault).SameClass (settle limits otherFault))
        (within levels expression env).1 (within levels expression other).1 ∧
      (within levels expression env).2.Related Datum.SameInCalls
        (within levels expression other).2 ∧
      (expression.Moderate → env.Moderate → other.Moderate → ∀ limits fault otherFault,
        (within levels expression env).1 = .error fault →
        (within levels expression other).1 = .error otherFault →
        EndsByDepth (some (settle limits fault)) ∨ EndsByDepth (some (settle limits otherFault)) ∨
          (settle limits fault).SameClass (settle limits otherFault)) := by
  have hcorresponds := Simulation.corresponds_upTo comparison_sameInCalls
  obtain ⟨houtcome, hafter⟩ := hcorresponds.within levels (rfl : expression = expression) env other
    henv
  refine ⟨houtcome.imp (fun a b hvalue => ?_) fun fault otherFault hfault => ?_, hafter,
    fun hexpression hmoderate hotherModerate limits fault otherFault h hother => ?_⟩
  · exact ⟨hvalue, hvalue.print_eq, hvalue.print?_eq⟩
  · cases hfault with
    | reported halike =>
      exact ⟨.reported halike.kind, fun _ => Interpreter.settle_sameClass halike.kind⟩
    | exhausted => exact ⟨.same _, fun _ _ => .same _⟩
  · rw [h, hother] at houtcome
    cases houtcome with
    | fault hfault =>
      cases hfault with
      | reported halike =>
        exact Interpreter.settle_sameClass_of_writable halike.kind
          (writable_of_within hexpression hmoderate h)
          (writable_of_within hexpression hotherModerate hother) limits
      | exhausted => exact Or.inr (Or.inr (.same _))

/-- A list of procedures of which one is bound with more expressions in its body, and an error that
shows this body. -/
theorem within_inert_list :
    let procedure (body : List Datum) : Datum := .procedure (some "f") ["x"] (.symbol "x" :: body)
    let env : Environment := ⟨[⟨"f", procedure [.symbol "y", .boolean true]⟩], []⟩
    let other : Environment := ⟨[⟨"f", procedure []⟩], []⟩
    let pair : Datum := .list [.symbol "cons", .symbol "f", .list [.symbol "f", .list []]]
    let error : Datum := .list [.symbol "car", .symbol "f"]
    env.Related Datum.SameInCalls other ∧
      Outcomes (fun a b => a.SameInCalls b ∧ a.print = b.print) (fun _ _ => False)
        (within 4 pair env).1 (within 4 pair other).1 ∧
      (within 4 pair env).2.Related Datum.SameInCalls (within 4 pair other).2 ∧
      error.Moderate ∧ env.Moderate ∧ other.Moderate ∧
      ∃ fault otherFault, (within 4 error env).1 = .error fault ∧
        (within 4 error other).1 = .error otherFault ∧ fault ≠ otherFault ∧
        (settle .standard fault).SameClass (settle .standard otherFault) := by
  intro procedure env other pair error
  have hprocedure : Datum.SameInCalls (procedure [.symbol "y", .boolean true]) (procedure []) :=
    .procedure rfl
  have hrelated : env.Related Datum.SameInCalls other := .cons (.cons ⟨rfl, hprocedure⟩ .nil) .nil
  have herror : error.Moderate := by
    refine .list fun item hitem => ?_
    simp only [List.mem_cons, List.not_mem_nil, or_false] at hitem
    rcases hitem with rfl | rfl <;> exact .symbol _
  have hmoderate : (procedure [.symbol "y", .boolean true]).Moderate := by
    refine .procedure fun expression hexpression => ?_
    simp only [List.mem_cons, List.not_mem_nil, or_false] at hexpression
    rcases hexpression with rfl | rfl | rfl
    · exact .symbol _
    · exact .symbol _
    · exact .boolean _
  have hotherModerate : (procedure []).Moderate :=
    .procedure fun expression hexpression => (List.mem_singleton.mp hexpression) ▸ .symbol _
  have hbound {value : Datum} (h : value.Moderate) : Environment.Moderate ⟨[⟨"f", value⟩], []⟩ :=
    (Environment.binds_empty _).bind "f" h
  have hfault (body : List Datum) : (within 4 error ⟨[⟨"f", procedure body⟩], []⟩).1 =
      .error (.reported (.notList "car" (procedure body))) := rfl
  have hworded (body : List Datum)
      (hbody : Datum.obstacle? .standard Limits.standard.describing (procedure body) = none) :
      ¬ EndsByDepth (some (settle .standard (.reported (.notList "car" (procedure body))))) := by
    have hnone : (Error.notList "car" (procedure body)).obstacle? .standard = none :=
      (Datum.obstacleAmong?_eq _ _ _).trans (List.findSome?_singleton.trans hbody)
    rw [settle, Error.fault_eq hnone]
    rintro ⟨_, ⟨⟩⟩
  obtain ⟨houtcome, hafter, _⟩ := within_inert 4 pair hrelated
  obtain ⟨_, _, hsettled⟩ := within_inert 4 error hrelated
  refine ⟨hrelated, ?_, hafter, herror, hbound hmoderate, hbound hotherModerate,
    _, _, hfault _, hfault _, ?_, ?_⟩
  · cases houtcome with
    | value hvalue => exact .value ⟨hvalue.1, hvalue.2.1⟩
  · rintro ⟨⟩
  · rcases hsettled herror (hbound hmoderate) (hbound hotherModerate) .standard _ _ (hfault _)
      (hfault _) with hdepth | hdepth | hsame
    · exact absurd hdepth (hworded _ rfl)
    · exact absurd hdepth (hworded _ rfl)
    · exact hsame

/-- A number that is too long is met when an error shows a body, although no call comes to it. The
same expression then ends with an error of its class in one of two environments only. -/
theorem evaluate_inert_numberTooLong :
    let procedure (body : List Datum) : Datum := .procedure (some "f") [] (.integer 1 :: body)
    let expression : Datum := .list [.symbol "car", .symbol "f"]
    let env : Environment := ⟨[⟨"f", procedure [.integer (Numeral.tenTo 4300)]⟩], []⟩
    let other : Environment := ⟨[⟨"f", procedure []⟩], []⟩
    env.Related Datum.SameInCalls other ∧
      (Interpreter.evaluate .standard expression env).1 = .error .numberTooLong ∧
      (Interpreter.evaluate .standard expression other).1 =
        .error (.reported (.notList "car" (procedure []))) := by
  intro procedure expression env other
  have hprocedure : Datum.SameInCalls (procedure [.integer (Numeral.tenTo 4300)]) (procedure []) :=
    .procedure rfl
  -- The description shows the whole body, where nothing comes of the first expression.
  have hfirst : Numeral.obstacle? 1 = none :=
    Numeral.obstacle?_eq_none_iff.mpr (Numeral.isTooLong_of_fits (by decide))
  have hshown (body : List Datum) : (Error.notList "car" (procedure body)).obstacle? .standard =
      Datum.printingObstacleAmong? Limits.standard.printing body := by
    simp only [Error.obstacle?, Error.described, procedure, Datum.obstacleAmong?, Datum.obstacle?,
      Datum.printingObstacleAmong?, Datum.printingObstacle?, hfirst, Option.none_or, Option.or_none]
  have hevaluate (body : List Datum) : (Interpreter.evaluate .standard expression
      ⟨[⟨"f", procedure body⟩], []⟩).1 =
        .error (settle .standard (.reported (.notList "car" (procedure body)))) := rfl
  refine ⟨.cons (.cons ⟨rfl, hprocedure⟩ .nil) .nil, ?_, ?_⟩
  · have hlong : Numeral.obstacle? (Numeral.tenTo 4300) = some .numberTooLong :=
      Numeral.obstacle?_eq_some_iff.mpr ⟨by decide +kernel, rfl⟩
    rw [hevaluate, settle, Error.fault, hshown, Datum.printingObstacleAmong?,
      Datum.printingObstacle?, hlong]
    rfl
  · rw [hevaluate, settle, Error.fault_eq (hshown [])]

end Evaluation

end SmallScheme
