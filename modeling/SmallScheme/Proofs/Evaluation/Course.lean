import SmallScheme.Proofs.Evaluation.Invariants

/-!
# The course of an evaluation

One step of evaluation has other expressions evaluated, one after the other, and which of them are
next depends on the values so far. `Course.of` tells this course apart from the rule that answers
it: put to a rule it does what a step with this rule does (`Course.run_of`). So the expressions that
a step has evaluated are those of its course (`Course.visits`), each of them once, and the
evaluations that are begun inside of another one are found course by course (`activations`). What
evaluation preserves holds for all of them (`Invariant.activations`).
-/

namespace SmallScheme.Evaluation

/-- What an evaluation does from some point on. -/
inductive Course where
  /-- It is over. -/
  | ended (outcome : Except Error Datum) (env : Environment)
  /-- An expression is evaluated in an environment. It goes on behind the value, and a fault ends
  it. -/
  | inner (expression : Datum) (env : Environment) (next : Datum → Environment → Course)
  /-- The body of a procedure is evaluated, in the frame of the call. It is over when this frame is
  left. -/
  | called (expression : Datum) (env : Environment)

/-- Asking for the environment changes nothing. -/
theorem get_bind_apply {α : Type} (next : Environment → Evaluation α) (env : Environment) :
    (get >>= next) env = next env env :=
  rfl

namespace Course

/-- What comes of a course if a rule evaluates the expressions in it. -/
def run (rule : Rule) : Course → Except Fault Datum × Environment
  | .ended outcome env => (outcome.mapError .reported, env)
  | .inner expression env next =>
    match rule expression env with
    | (.ok value, after) => (next value after).run rule
    | (.error fault, after) => (.error fault, after)
  | .called expression env =>
    let (outcome, after) := rule expression env
    match after.pop with
    | .ok env => (outcome, env)
    | .error error => (.error (.reported error), after)

/-- The expressions that a course has evaluated, in the order in which that is done, each with its
environment. -/
def visits (rule : Rule) : Course → List (Datum × Environment)
  | .ended _ _ => []
  | .inner expression env next =>
    (expression, env) ::
      match rule expression env with
      | (.ok value, after) => (next value after).visits rule
      | (.error _, _) => []
  | .called expression env => [(expression, env)]

/-- An expression is evaluated last, and its value is that of the course. -/
def last (expression : Datum) (env : Environment) : Course :=
  .inner expression env fun value after => .ended (.ok value) after

/-- The course of `(quote datum)`. -/
def ofQuotation (rest : List Datum) (env : Environment) : Course :=
  match rest with
  | [datum] => .ended (.ok datum) env
  | _ => .ended (.error .quoteArity) env

/-- The course of a definition. -/
def ofDefinition (rest : List Datum) (env : Environment) : Course :=
  match rest with
  | [] => .ended (.error .defineWithoutTarget) env
  | .symbol name :: rest =>
    match rest with
    | [expression] =>
      .inner expression env fun value after => .ended (.ok value) (after.bind name value)
    | _ => .ended (.error .defineArity) env
  | .list (.symbol name :: parameters) :: body =>
    match parameterNames name parameters with
    | .ok names =>
      let value := .procedure name names body
      .ended (.ok value) (env.bind name value)
    | .error error => .ended (.error error) env
  | target :: _ => .ended (.error (.notDefinable target)) env

/-- The course of a conditional. -/
def ofConditional (rest : List Datum) (env : Environment) : Course :=
  match rest with
  | [condition, consequent] =>
    .inner condition env fun value after =>
      if holds value then last consequent after else .ended (.error .noAlternative) after
  | [condition, consequent, alternative] =>
    .inner condition env fun value after =>
      if holds value then last consequent after else last alternative after
  | _ => .ended (.error .ifArity) env

/-- The course of a call. -/
def ofCall (name : Option Name) (parameters : List Name) (body operands : List Datum)
    (env : Environment) : Course :=
  if operands.length ≠ parameters.length then
    .ended (.error (.callArity name parameters.length operands.length)) env
  else
    match body with
    | [] => .ended (.error (.emptyBody name)) env
    | expression :: _ => .called expression (env.push.bindAll parameters operands)

/-- The course of an application behind its operands. -/
def ofApplication (head : Datum) (operands : List Datum) (env : Environment) : Course :=
  match head with
  | .symbol name =>
    match env.lookup? name with
    | some (.procedure procedureName parameters body) =>
      ofCall procedureName parameters body operands env
    | some value => .ended (.error (.notProcedure value)) env
    | none =>
      match Primitive.ofName? name with
      | some primitive => .ended (primitive.apply operands) env
      | none => .ended (.error (.unknownProcedure name)) env
  | _ => .ended (.error (.notApplicable head operands)) env

/-- The course that evaluates operands from the left and then goes on with their values. -/
def ofOperands (next : List Datum → Environment → Course) : List Datum → Environment → Course
  | [], env => next [] env
  | operand :: rest, env =>
    .inner operand env fun value after =>
      ofOperands (fun values => next (value :: values)) rest after

/-- The course of an evaluation. -/
def of (expression : Datum) (env : Environment) : Course :=
  match expression with
  | .symbol name => .ended (env.resolve name) env
  | .list [] => .ended (.ok (.list [])) env
  | .list (head :: rest) =>
    match Form.ofHead? head with
    | some .quotation => ofQuotation rest env
    | some .definition => ofDefinition rest env
    | some .conditional => ofConditional rest env
    | none => ofOperands (ofApplication head) rest env
  | .foreign value => .ended (.error (.notEvaluable (.foreign value))) env
  | datum => .ended (.ok datum) env

section Run

variable (rule : Rule)

theorem run_last (expression : Datum) (env : Environment) :
    (last expression env).run rule = rule expression env := by
  unfold last
  rw [run]
  rcases rule expression env with ⟨fault | value, after⟩ <;> rfl

theorem run_ofQuotation (rest : List Datum) (env : Environment) :
    (ofQuotation rest env).run rule = quotation rest env := by
  rcases rest with _ | ⟨datum, _ | _⟩ <;> rfl

theorem run_ofDefinition (rest : List Datum) (env : Environment) :
    (ofDefinition rest env).run rule = definition rule rest env := by
  rcases rest with _ | ⟨target, rest⟩
  · rfl
  · cases target with
    | symbol name =>
      rcases rest with _ | ⟨expression, _ | _⟩
      · rfl
      · dsimp only [ofDefinition, definition]
        rw [run, bind_apply]
        rcases rule expression env with ⟨fault | value, after⟩ <;> rfl
      · rfl
    | list items =>
      rcases items with _ | ⟨first, parameters⟩
      · rfl
      · cases first with
        | symbol name =>
          dsimp only [ofDefinition, definition]
          rw [bind_apply, ofExcept_apply]
          rcases parameterNames name parameters with error | names <;> rfl
        | boolean | integer | list | procedure | foreign => rfl
    | boolean | integer | procedure | foreign => rfl

theorem run_ofConditional (rest : List Datum) (env : Environment) :
    (ofConditional rest env).run rule = conditional rule rest env := by
  rcases rest with _ | ⟨condition, _ | ⟨consequent, _ | ⟨alternative, _ | _⟩⟩⟩
  · rfl
  · rfl
  · dsimp only [ofConditional, conditional]
    rw [run, bind_apply]
    rcases rule condition env with ⟨fault | value, after⟩
    · rfl
    · dsimp only
      split
      · exact run_last rule consequent after
      · rfl
  · dsimp only [ofConditional, conditional]
    rw [run, bind_apply]
    rcases rule condition env with ⟨fault | value, after⟩
    · rfl
    · dsimp only
      split
      · exact run_last rule consequent after
      · exact run_last rule alternative after
  · rfl

theorem run_ofCall (name : Option Name) (parameters : List Name) (body operands : List Datum)
    (env : Environment) :
    (ofCall name parameters body operands env).run rule =
      call rule name parameters body operands env := by
  unfold ofCall call
  split
  · rfl
  · cases body <;> rfl

theorem run_ofApplication (head : Datum) (operands : List Datum) (env : Environment) :
    (ofApplication head operands env).run rule = apply rule head operands env := by
  cases head with
  | symbol name =>
    dsimp only [ofApplication, apply]
    rw [get_bind_apply]
    rcases env.lookup? name with _ | value
    · dsimp only
      rcases Primitive.ofName? name with _ | primitive
      · rfl
      · exact (ofExcept_apply _ env).symm
    · cases value with
      | procedure => exact run_ofCall rule _ _ _ _ env
      | boolean | integer | symbol | list | foreign => rfl
  | boolean | integer | list | procedure | foreign => rfl

/-- Operands are evaluated as by going through them with the rule. -/
theorem run_ofOperands {next : List Datum → Environment → Course}
    {continuation : List Datum → Evaluation Datum}
    (h : ∀ operands env, (next operands env).run rule = continuation operands env)
    (rest : List Datum) (env : Environment) :
    (ofOperands next rest env).run rule = (rest.mapM rule >>= continuation) env := by
  induction rest generalizing next continuation env with
  | nil =>
    rw [ofOperands, h, List.mapM_nil, pure_bind]
  | cons operand rest ih =>
    rw [ofOperands, run, List.mapM_cons, bind_assoc, bind_apply]
    rcases rule operand env with ⟨fault | value, after⟩
    · rfl
    · dsimp only
      rw [ih fun operands env => h (value :: operands) env, bind_assoc]
      simp only [pure_bind]

/-- The course of an evaluation is what a step of evaluation does, with whatever rule for the
expressions in it. -/
theorem run_of (expression : Datum) (env : Environment) :
    (of expression env).run rule = step rule expression env := by
  cases expression with
  | symbol name => exact (ofExcept_apply _ env).symm
  | list items =>
    rcases items with _ | ⟨head, rest⟩
    · rfl
    · dsimp only [of, step]
      rcases Form.ofHead? head with _ | form
      · exact run_ofOperands rule (run_ofApplication rule head) rest env
      · cases form with
        | quotation => exact run_ofQuotation rule rest env
        | definition => exact run_ofDefinition rule rest env
        | conditional => exact run_ofConditional rule rest env
  | boolean | integer | procedure | foreign => rfl

end Run

section Visits

variable {rule : Rule} {course : Course}

/-- A course ends itself only with errors of the program. If it has run out of levels, then an
expression in it has. -/
theorem exists_visit_of_exhausted (h : (course.run rule).1 = .error .exhausted) :
    ∃ visit ∈ course.visits rule, (rule visit.1 visit.2).1 = .error .exhausted := by
  induction course with
  | ended outcome env =>
    cases outcome <;> cases h
  | inner expression env next ih =>
    rw [run] at h
    rw [visits]
    rcases hrule : rule expression env with ⟨fault | value, after⟩
    · rw [hrule] at h
      exact ⟨_, List.mem_cons_self, (congrArg Prod.fst hrule).trans h⟩
    · rw [hrule] at h
      obtain ⟨visit, hvisit, hexhausted⟩ := ih value after h
      exact ⟨visit, List.mem_cons_of_mem _ hvisit, hexhausted⟩
  | called expression env =>
    refine ⟨_, List.mem_singleton_self _, ?_⟩
    rw [run] at h
    rcases hrule : rule expression env with ⟨outcome, after⟩
    rw [hrule] at h
    dsimp only at h
    -- What keeps the frame from being left is reported, so it is not this fault.
    rcases hpop : after.pop with error | env
    · rw [hpop] at h
      cases h
    · rw [hpop] at h
      exact h

/-- Leading from code to values, in environments that bind values only. -/
def Leads (code values : Datum → Prop) (rule : Rule) : Prop :=
  ∀ expression env value after, code expression → env.Binds values →
    rule expression env = (.ok value, after) → values value ∧ after.Binds values

/-- Having code evaluated only, in environments that bind values only, as long as this leads to
values. -/
inductive Asks (code values : Datum → Prop) : Course → Prop
  | ended (outcome : Except Error Datum) (env : Environment) : Asks code values (.ended outcome env)
  | inner {expression : Datum} {env : Environment} {next : Datum → Environment → Course} :
      code expression → env.Binds values →
      (∀ value after, values value → after.Binds values → Asks code values (next value after)) →
      Asks code values (.inner expression env next)
  | called {expression : Datum} {env : Environment} : code expression → env.Binds values →
      Asks code values (.called expression env)

variable {code values : Datum → Prop} {env : Environment}

theorem Asks.visits (h : course.Asks code values) (hrule : Leads code values rule) :
    ∀ visit ∈ course.visits rule, code visit.1 ∧ visit.2.Binds values := by
  induction h with
  | ended outcome env => exact fun visit hvisit => absurd hvisit List.not_mem_nil
  | @inner expression env next hexpression henv _ ih =>
    rw [Course.visits]
    refine List.forall_mem_cons.mpr ⟨⟨hexpression, henv⟩, ?_⟩
    rcases hvalue : rule expression env with ⟨fault | value, after⟩
    · exact fun visit hvisit => absurd hvisit List.not_mem_nil
    · obtain ⟨hvalues, hafter⟩ := hrule expression env value after hexpression henv hvalue
      exact ih value after hvalues hafter
  | called hexpression henv => exact List.forall_mem_singleton.mpr ⟨hexpression, henv⟩

theorem asks_last {expression : Datum} (hexpression : code expression) (henv : env.Binds values) :
    (last expression env).Asks code values :=
  .inner hexpression henv fun _ _ _ _ => .ended _ _

theorem asks_ofQuotation (rest : List Datum) (env : Environment) :
    (ofQuotation rest env).Asks code values := by
  unfold ofQuotation
  split <;> exact .ended _ _

theorem asks_ofDefinition {rest : List Datum} (hrest : ∀ item ∈ rest, code item)
    (henv : env.Binds values) : (ofDefinition rest env).Asks code values := by
  unfold ofDefinition
  split
  · exact .ended _ _
  · split
    · exact .inner (hrest _ (by simp)) henv fun _ _ _ _ => .ended _ _
    · exact .ended _ _
  · split <;> exact .ended _ _
  · exact .ended _ _

theorem asks_ofConditional {rest : List Datum} (hrest : ∀ item ∈ rest, code item)
    (henv : env.Binds values) : (ofConditional rest env).Asks code values := by
  unfold ofConditional
  split
  · refine .inner (hrest _ (by simp)) henv fun value after _ hafter => ?_
    split
    · exact asks_last (hrest _ (by simp)) hafter
    · exact .ended _ _
  · refine .inner (hrest _ (by simp)) henv fun value after _ hafter => ?_
    split
    · exact asks_last (hrest _ (by simp)) hafter
    · exact asks_last (hrest _ (by simp)) hafter
  · exact .ended _ _

theorem asks_ofOperands {next : List Datum → Environment → Course} {rest : List Datum}
    (hnext : ∀ operands env, (∀ operand ∈ operands, values operand) → env.Binds values →
      (next operands env).Asks code values)
    (hrest : ∀ item ∈ rest, code item) (henv : env.Binds values) :
    (ofOperands next rest env).Asks code values := by
  induction rest generalizing next env with
  | nil => exact hnext [] env (fun operand hmem => absurd hmem List.not_mem_nil) henv
  | cons operand rest ih =>
    obtain ⟨hoperand, hothers⟩ := List.forall_mem_cons.mp hrest
    refine .inner hoperand henv fun value after hvalue hafter => ?_
    exact ih (fun operands env hoperands henv =>
      hnext (value :: operands) env (List.forall_mem_cons.mpr ⟨hvalue, hoperands⟩) henv)
      hothers hafter

variable {errors : Error → Prop}

/-- A call evaluates the body of a value. -/
theorem asks_ofApplication (h : Invariant code values errors) (head : Datum) {operands : List Datum}
    (hoperands : ∀ operand ∈ operands, values operand) (henv : env.Binds values) :
    (ofApplication head operands env).Asks code values := by
  unfold ofApplication
  split
  · split
    · next procedureName parameters body hlookup =>
      unfold ofCall
      split
      · exact .ended _ _
      · split
        · exact .ended _ _
        · next expression rest =>
          refine .called ?_ (henv.push.bindAll parameters hoperands)
          cases h.called (henv.lookup? hlookup) with
          | procedures _ _ hbody => exact hbody expression rfl
          | others hne _ => exact absurd rfl (hne _ _ _)
    · exact .ended _ _
    · split <;> exact .ended _ _
  · exact .ended _ _

/-- The course of code, where values are bound, has only code evaluated where values are bound. -/
theorem asks_of (h : Invariant code values errors) {expression : Datum}
    (hexpression : code expression) (henv : env.Binds values) :
    (of expression env).Asks code values := by
  unfold of
  split
  · exact .ended _ _
  · exact .ended _ _
  · next head rest =>
    have hrest : ∀ item ∈ rest, code item := fun item hitem =>
      h.member hexpression item (List.mem_cons_of_mem _ hitem)
    split
    · exact asks_ofQuotation rest env
    · exact asks_ofDefinition hrest henv
    · exact asks_ofConditional hrest henv
    · exact asks_ofOperands (fun _ _ hoperands henv => asks_ofApplication h head hoperands henv)
        hrest henv
  · exact .ended _ _
  · exact .ended _ _

theorem leads_within (h : Invariant code values errors) (levels : Nat) :
    Leads code values (within levels) := by
  intro expression env value after hexpression henv hvalue
  obtain ⟨hvalues, _, hafter⟩ := h.within levels hexpression henv
  rw [hvalue] at hvalues hafter
  exact ⟨hvalues value rfl, hafter⟩

end Visits

end Course

/-- An evaluation that is begun. -/
structure Activation where
  /-- How many evaluations may be active at once, this one included. -/
  levels : Nat
  expression : Datum
  env : Environment

/-- The evaluations that are begun while an expression is evaluated, in the order in which this is
done: each of those in its course, followed by the ones that are begun inside of it. -/
def activations (levels : Nat) (expression : Datum) (env : Environment) : List Activation :=
  match levels with
  | 0 => []
  | levels + 1 =>
    ((Course.of expression env).visits (within levels)).flatMap fun visit =>
      ⟨levels, visit.1, visit.2⟩ :: activations levels visit.1 visit.2

/-- Wherever code is evaluated and values are bound, this also holds inside of the evaluation. -/
theorem Invariant.activations {code values : Datum → Prop} {errors : Error → Prop}
    (h : Invariant code values errors) {levels : Nat} {expression : Datum} {env : Environment}
    (hexpression : code expression) (henv : env.Binds values) :
    ∀ activation ∈ activations levels expression env,
      code activation.expression ∧ activation.env.Binds values := by
  induction levels generalizing expression env with
  | zero => exact fun activation hmem => absurd hmem List.not_mem_nil
  | succ levels ih =>
    intro activation hmem
    obtain ⟨visit, hvisit, hinner⟩ := List.mem_flatMap.mp hmem
    obtain ⟨hcode, hbinds⟩ :=
      (Course.asks_of h hexpression henv).visits (Course.leads_within h levels) visit hvisit
    rcases List.mem_cons.mp hinner with rfl | hinner
    · exact ⟨hcode, hbinds⟩
    · exact ih hcode hbinds activation hinner

end SmallScheme.Evaluation
