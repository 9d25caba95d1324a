import SmallScheme.Proofs.Evaluation.Course
import SmallScheme.Proofs.Interpreter.Values

/-!
# The procedures that a program makes

The definition of a procedure may stand in an operand or in the body of another procedure, and what
it makes may be gone with the frame of a call. `Interpreter.activations` are all evaluations that a
program begins, those inside of others included. Each of them is of an expression that is written
and nested no more deeply than the program itself, and so is every definition that makes a procedure
(`Interpreter.Makes.exists_definition`).
-/

namespace SmallScheme

open Evaluation

namespace Datum

/-- The definition of a procedure as a program writes it. -/
def definition (name : Name) (parameters : List Name) (body : List Datum) : Datum :=
  .list (.symbol "define" :: .list (.symbol name :: parameters.map .symbol) :: body)

variable {limit : Nat}

/-- Being written, and nested no more than so many levels deep. -/
structure WrittenWithin (limit : Nat) (datum : Datum) : Prop where
  written : datum.Written
  depth_le : datum.depth ≤ limit

/-- Being a computed value, with procedures inside only whose bodies are nested no more than so many
levels deep. -/
structure ComputedWithin (limit : Nat) (value : Datum) : Prop where
  computed : value.Computed
  bodies : ∀ name parameters body, Inside (.procedure name parameters body) value →
    ∀ expression ∈ body, expression.depth ≤ limit

theorem WrittenWithin.member {items : List Datum} (h : (Datum.list items).WrittenWithin limit) :
    ∀ item ∈ items, item.WrittenWithin limit := by
  intro item hitem
  refine ⟨written_list_iff.mp h.written item hitem, ?_⟩
  exact (depth_le_depthOfAll hitem).trans ((Nat.le_succ _).trans h.depth_le)

theorem computedWithin_of_procedureFree {value : Datum} (hcomputed : value.Computed)
    (hfree : value.ProcedureFree) : value.ComputedWithin limit :=
  ⟨hcomputed, fun name parameters body hinside => absurd hinside (hfree name parameters body)⟩

theorem computedWithin_procedure {name : Option Name} {parameters : List Name} {body : List Datum}
    (hcomputed : (Datum.procedure name parameters body).Computed)
    (hbody : ∀ expression ∈ body, expression.depth ≤ limit) :
    (Datum.procedure name parameters body).ComputedWithin limit := by
  refine ⟨hcomputed, ?_⟩
  rintro _ _ _ ⟨⟩
  exact hbody

theorem computedWithin_list_iff {items : List Datum} :
    (Datum.list items).ComputedWithin limit ↔ ∀ item ∈ items, item.ComputedWithin limit := by
  constructor
  · intro h item hitem
    exact ⟨computed_list_iff.mp h.computed item hitem, fun name parameters body hinside =>
      h.bodies name parameters body (.member hitem hinside)⟩
  · intro h
    refine ⟨computed_list_iff.mpr fun item hitem => (h item hitem).computed, ?_⟩
    intro name parameters body hinside
    cases hinside with
    | member hitem hinner => exact (h _ hitem).bodies name parameters body hinner

end Datum

namespace Evaluation

/-- A body is nested less deeply than the definition it stands in, so no expression that comes to
evaluation is nested more deeply than what was read. -/
theorem invariant_computedWithin (limit : Nat) :
    Invariant (Datum.WrittenWithin limit) (Datum.ComputedWithin limit) Error.Expected where
  member h := h.member
  self h :=
    Datum.computedWithin_of_procedureFree h.written.computed h.written.expressible.procedureFree
  definition h hnames := by
    refine Datum.computedWithin_procedure (computed_of_definition h.written hnames) ?_
    exact fun expression hmem => (h.member expression (by simp [hmem])).depth_le
  called {value} h := by
    obtain ⟨hcomputed, hbodies⟩ := h
    cases hcomputed with
    | procedure _ hparameters hbody =>
      refine .procedures (fun parameter hparameter => ?_) rfl fun expression hexpression => ?_
      · exact ⟨Datum.written_symbol_iff.mpr (hparameters parameter hparameter), Nat.zero_le _⟩
      · have hmem := List.mem_of_mem_head? hexpression
        exact ⟨hbody expression hmem, hbodies _ _ _ .self expression hmem⟩
    | _ => exact .others (fun _ _ _ => Datum.noConfusion) fun _ _ _ => Datum.noConfusion
  yields h hoperands := by
    refine (Primitive.yields_of_apply h).preserved (fun value hfits => ?_) (fun value => ?_)
      (fun items => Datum.computedWithin_list_iff) hoperands
    · exact Datum.computedWithin_of_procedureFree (.integer hfits) fun _ _ _ => nofun
    · exact Datum.computedWithin_of_procedureFree (.boolean value) fun _ _ _ => nofun
  fails h hoperands :=
    Primitive.expected_of_apply h fun operand hmem => (hoperands operand hmem).computed.moderate
  about h := h.expected fun _ hvalue => hvalue.computed.moderate.short
  foreign h := absurd rfl (h.written.computed.ne_foreign _)

/-- The names of parameters that are given as symbols. -/
theorem parameterNames_map_symbol (procedure : Name) (names : List Name) :
    parameterNames procedure (names.map .symbol) = .ok names := by
  induction names with
  | nil => rfl
  | cons name names ih =>
    rw [parameterNames] at ih
    rw [parameterNames, List.map_cons, List.mapM_cons, ih]
    rfl

variable {levels : Nat} {env : Environment}

/-- A definition makes a procedure of the names and the body in it, and binds the first name. -/
theorem within_definition (levels : Nat) (name : Name) (parameters : List Name) (body : List Datum)
    (env : Environment) :
    within (levels + 1) (.definition name parameters body) env =
      (.ok (.procedure (some name) parameters body),
        env.bind name (.procedure (some name) parameters body)) := by
  change (ofExcept (parameterNames name (parameters.map .symbol)) >>= _) env = _
  rw [parameterNames_map_symbol]
  rfl

/-- What has a list as its target and makes anything is the definition of a procedure. -/
theorem eq_definition_of_within {target rest : List Datum} {value : Datum}
    (h : (within levels (.list (.symbol "define" :: .list target :: rest)) env).1 = .ok value) :
    ∃ (name : Name) (parameters : List Name), value = .procedure (some name) parameters rest ∧
      Datum.list (.symbol "define" :: .list target :: rest) =
        .definition name parameters rest := by
  cases levels with
  | zero => cases h
  | succ levels =>
    rcases target with _ | ⟨first, parameters⟩
    · cases h
    · cases first with
      | symbol name =>
        change ((ofExcept (parameterNames name parameters) >>= _) env).1 = .ok value at h
        rw [bind_apply, ofExcept_apply] at h
        rcases hnames : parameterNames name parameters with error | names
        · rw [hnames] at h
          cases h
        · rw [hnames] at h
          cases h
          exact ⟨name, names, rfl, by rw [Datum.definition, eq_map_of_parameterNames hnames]⟩
      | boolean | integer | list | procedure | foreign => cases h

end Evaluation

namespace Interpreter

/-- The evaluations that are begun while some expressions are run, in the order in which this is
done: each expression that is begun, followed by what is begun inside of its evaluation. -/
def activations (limits : Limits) : List Datum → Environment → List Activation
  | [], _ => []
  | expression :: rest, env =>
    ⟨limits.evaluating, expression, env⟩ ::
      (Evaluation.activations limits.evaluating expression env ++
        match evaluate limits expression env with
        | (.ok _, after) => activations limits rest after
        | (.error _, _) => [])

/-- Whatever evaluation is begun by a run of code, where values are bound, is of code, and values
are bound there. -/
theorem forall_activations {code values : Datum → Prop} {errors : Error → Prop}
    (h : Evaluation.Invariant code values errors) (limits : Limits) {expressions : List Datum}
    (hcode : ∀ expression ∈ expressions, code expression) {env : Environment}
    (henv : env.Binds values) :
    ∀ activation ∈ activations limits expressions env,
      code activation.expression ∧ activation.env.Binds values := by
  induction expressions generalizing env with
  | nil => exact fun activation hmem => absurd hmem List.not_mem_nil
  | cons expression rest ih =>
    obtain ⟨hfirst, hrest⟩ := List.forall_mem_cons.mp hcode
    have hafter : (evaluate limits expression env).2.Binds values :=
      (h.within limits.evaluating hfirst henv).2.2
    rw [activations]
    refine List.forall_mem_cons.mpr ⟨⟨hfirst, henv⟩, List.forall_mem_append.mpr ⟨?_, ?_⟩⟩
    · exact h.activations hfirst henv
    · rcases hresult : evaluate limits expression env with ⟨fault | value, after⟩
      · exact fun activation hmem => absurd hmem List.not_mem_nil
      · rw [hresult] at hafter
        exact ih hrest hafter

/-- Being made while a text is interpreted in a new environment: there the definition of a procedure
comes to evaluation, in whatever place, and this is its value. -/
def Makes (limits : Limits) (text : List Char) (procedure : Datum) : Prop :=
  ∃ activation ∈ activations limits (Program.ofText limits text).expressions .empty,
    ∃ target rest, activation.expression = .list (.symbol "define" :: .list target :: rest) ∧
      (within activation.levels activation.expression activation.env).1 = .ok procedure

/-- What a text makes is made by a definition that is written and nested no more deeply than can be
read. -/
theorem Makes.exists_definition {limits : Limits} {text : List Char} {procedure : Datum}
    (h : Makes limits text procedure) :
    ∃ (name : Name) (parameters : List Name) (body : List Datum),
      procedure = .procedure (some name) parameters body ∧
        (Datum.definition name parameters body).WrittenWithin limits.reading := by
  obtain ⟨activation, hmem, target, rest, hexpression, hvalue⟩ := h
  have hprogram : ∀ expression ∈ (Program.ofText limits text).expressions,
      expression.WrittenWithin limits.reading := fun expression hmem =>
    ⟨Program.written_of_mem expression hmem, Program.depth_le_of_mem expression hmem⟩
  have hwritten := (forall_activations (invariant_computedWithin limits.reading) limits hprogram
    (Environment.binds_empty _) activation hmem).1
  rw [hexpression] at hvalue hwritten
  obtain ⟨name, parameters, rfl, hdefinition⟩ := eq_definition_of_within hvalue
  exact ⟨name, parameters, rest, rfl, hdefinition ▸ hwritten⟩

end Interpreter

end SmallScheme
