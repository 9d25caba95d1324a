import SmallScheme.Interpreter
import SmallScheme.Proofs.Data.Parts
import SmallScheme.Proofs.Environment.Blocks
import SmallScheme.Proofs.Evaluation.Computation

/-!
# The frame law

All calls share one stack of frames, and the body of a procedure runs on top of the frames of its
caller. This file proves that evaluation leaves the stack as it found it, but for bindings added to
the innermost frame, and that only definitions written in the expression itself add any. Both hold
behind every outcome, since a frame is left however its block ends.
-/

namespace SmallScheme

/-- Growing by nothing but bindings in the innermost frame. The latest binding comes first. -/
structure Environment.Extends (before after : Environment) : Prop where
  outer : after.outer = before.outer
  innermost : before.innermost <:+ after.innermost

instance : IsPreorder Environment Environment.Extends where
  refl _ := ⟨rfl, List.suffix_rfl⟩
  trans _ _ _ hfirst hsecond :=
    ⟨hsecond.outer.trans hfirst.outer, hfirst.innermost.trans hsecond.innermost⟩

namespace Evaluation

open Environment (Extends)

variable {α : Type} {relation : Environment → Environment → Prop}
  [IsPreorder Environment relation] {rule : Rule}

theorem bind_extends (name : Name) (value : Datum) : Keeps Extends (bind name value) :=
  fun _ => ⟨rfl, List.suffix_cons _ _⟩

theorem bindAll_extends (names : List Name) (values : List Datum) (env : Environment) :
    env.Extends (env.bindAll names values) := by
  induction names generalizing values env with
  | nil => exact refl (r := Extends) env
  | cons name names ih =>
    cases values with
    | nil => exact refl (r := Extends) env
    | cons value values =>
      exact IsTrans.trans _ _ _ (bind_extends name value env) (ih values (env.bind name value))

/-- A computation that only extends the innermost frame runs in a frame of its own without a
trace. -/
theorem inFrame_apply {computation : Evaluation α} (h : Keeps Extends computation)
    (env : Environment) : inFrame computation env = ((computation env.push).1, env) :=
  Environment.scope_of_outer_eq (h env.push).outer

/-- The body of a procedure extends the frame of its parameters. -/
theorem body_extends (hrule : ∀ expression, Keeps Extends (rule expression))
    (parameters : List Name) (operands : List Datum) (expression : Datum) :
    Keeps Extends (do modify (·.bindAll parameters operands); rule expression) :=
  Keeps.bind (fun env => bindAll_extends parameters operands env) fun _ => hrule expression

/-- A call changes no frame of its caller. -/
theorem keeps_call (hrule : ∀ expression, Keeps Extends (rule expression)) (name : Option Name)
    (parameters : List Name) (body operands : List Datum) :
    Keeps relation (call rule name parameters body operands) := by
  unfold call
  split
  · exact keeps_fail _
  · split
    · exact keeps_fail _
    · next expression _ =>
      -- The body may extend the frame of the call as it likes, since that frame is left behind it.
      intro env
      rw [inFrame_apply (body_extends hrule parameters operands expression)]
      exact refl (r := relation) env

theorem keeps_apply (hrule : ∀ expression, Keeps Extends (rule expression)) (head : Datum)
    (operands : List Datum) : Keeps relation (apply rule head operands) := by
  unfold apply
  split
  · next name =>
    refine keeps_get_bind fun env => ?_
    split
    · exact keeps_call hrule _ _ _ _
    · exact keeps_fail _
    · split
      · exact keeps_ofExcept _
      · exact keeps_fail _
  · exact keeps_fail _

theorem keeps_quotation (rest : List Datum) : Keeps relation (quotation rest) := by
  unfold quotation
  split
  · exact keeps_pure _
  · exact keeps_fail _

theorem keeps_conditional {rest : List Datum} (h : ∀ item ∈ rest, Keeps relation (rule item)) :
    Keeps relation (conditional rule rest) := by
  unfold conditional
  split
  · next condition consequent =>
    refine (h condition (by simp)).bind fun value => ?_
    split
    · exact h consequent (by simp)
    · exact keeps_fail _
  · next condition consequent alternative =>
    refine (h condition (by simp)).bind fun value => ?_
    split
    · exact h consequent (by simp)
    · exact h alternative (by simp)
  · exact keeps_fail _

/-- A definition adds one binding to the innermost frame, behind those its expression adds. -/
theorem definition_extends (hrule : ∀ expression, Keeps Extends (rule expression))
    (rest : List Datum) : Keeps Extends (definition rule rest) := by
  unfold definition
  split
  · exact keeps_fail _
  · split
    · next expression =>
      refine (hrule expression).bind fun value => ?_
      exact (bind_extends _ _).bind fun _ => keeps_pure _
    · exact keeps_fail _
  · refine (keeps_ofExcept _).bind fun names => ?_
    exact (bind_extends _ _).bind fun _ => keeps_pure _
  · exact keeps_fail _

/-- Only the name of the form calls for a definition. -/
theorem ofHead?_eq_some_definition {head : Datum} (h : Form.ofHead? head = some .definition) :
    head = .symbol "define" := by
  unfold Form.ofHead? at h
  split at h <;> simp_all

/-- One step of evaluation keeps what the evaluations inside it keep, and what the definition does
if the expression is one. -/
theorem keeps_step (hrule : ∀ expression, Keeps Extends (rule expression)) {expression : Datum}
    (hmembers : ∀ items, expression = .list items → ∀ item ∈ items, Keeps relation (rule item))
    (hdefinition : ∀ rest, expression = .list (.symbol "define" :: rest) →
      Keeps relation (definition rule rest)) :
    Keeps relation (step rule expression) := by
  unfold step
  split
  · exact keeps_get_bind fun env => keeps_ofExcept _
  · exact keeps_pure _
  · next head rest =>
    have hrest : ∀ item ∈ rest, Keeps relation (rule item) := fun item hitem =>
      hmembers _ rfl item (List.mem_cons_of_mem _ hitem)
    split
    · next form hform =>
      cases form with
      | quotation => exact keeps_quotation rest
      | conditional => exact keeps_conditional hrest
      | definition => exact hdefinition rest (by rw [ofHead?_eq_some_definition hform])
    · exact (keeps_mapM hrest).bind fun operands => keeps_apply hrule head operands
  · exact keeps_fail _
  · exact keeps_pure _

/-- Evaluation extends the innermost frame at most. -/
theorem within_extends (levels : Nat) (expression : Datum) :
    Keeps Extends (within levels expression) := by
  induction levels generalizing expression with
  | zero => exact fun env => refl (r := Extends) env
  | succ levels ih =>
    exact keeps_step ih (fun _ _ item _ => ih item) fun rest _ => definition_extends ih rest

/-- Evaluation of what contains no definition changes no frame. The procedures it calls may well
define names, but in frames of their own. -/
theorem within_unchanged (levels : Nat) {expression : Datum}
    (h : ¬ Datum.Inside (.symbol "define") expression) :
    Keeps (· = ·) (within levels expression) := by
  induction levels generalizing expression with
  | zero => exact fun env => rfl
  | succ levels ih =>
    refine keeps_step (within_extends levels) (fun items heq item hitem => ih ?_) fun rest heq => ?_
    · intro hinside
      subst heq
      exact h (.member hitem hinside)
    · subst heq
      exact absurd (.member List.mem_cons_self .self) h

end Evaluation

namespace Interpreter

/-- Whatever the outcome of an evaluation, the depth of the environment is the same as before, no
outer frame has changed, and the innermost frame has only been added to: the old one is the end of
the new one, since the latest binding comes first. An expression in which the name of the form does
not occur adds no bindings at all, whatever the procedures it calls define. -/
theorem evaluate_frames (limits : Limits) (expression : Datum) (env : Environment) :
    let after := (evaluate limits expression env).2
    after.depth = env.depth ∧ after.outer = env.outer ∧ env.innermost <:+ after.innermost ∧
      (¬ Datum.Inside (.symbol "define") expression → after = env) := by
  intro after
  have hextends : env.Extends after := Evaluation.within_extends limits.evaluating expression env
  refine ⟨?_, hextends.outer, hextends.innermost, ?_⟩
  · simp only [Environment.depth, Environment.frames, hextends.outer, List.length_cons]
  · intro hquiet
    exact (Evaluation.within_unchanged limits.evaluating hquiet env).symm

end Interpreter

end SmallScheme
