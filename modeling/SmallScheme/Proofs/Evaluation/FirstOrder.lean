import Mathlib.Data.List.Flatten
import SmallScheme.Proofs.Evaluation.Course
import SmallScheme.Proofs.Evaluation.Levels
import SmallScheme.Proofs.Evaluation.Primitives

/-!
# Expressions that make no procedures

Evaluation does not go by the structure of an expression, since a call goes on with the body of a
procedure. But where no procedure is bound and none is made, none can be called: quotations,
primitives and definitions of values make none of what is bound. Then every evaluation is begun for
the next member of a list and goes on with members behind it (`Course.Descends`), so that no more
evaluations are active at once than lists are nested (`within_firstOrder`).
-/

namespace SmallScheme

namespace Datum

/-- Having no procedure inside, and no definition of one. -/
structure FirstOrder (datum : Datum) : Prop where
  free : datum.ProcedureFree
  definitions : ∀ target rest,
    ¬ Inside (.list (.symbol "define" :: .list target :: rest)) datum

/-- The members of a list. Nothing else has any. -/
def members : Datum → List Datum
  | .list items => items
  | _ => []

mutual

/-- The proper parts of a datum as it is written: each member of a list, followed by its own proper
parts. What is written twice is there twice. -/
def parts : Datum → List Datum
  | .list items => partsOfAll items
  | _ => []

/-- Some data, each followed by its proper parts. -/
def partsOfAll : List Datum → List Datum
  | [] => []
  | item :: items => item :: (item.parts ++ partsOfAll items)

end

theorem partsOfAll_eq (items : List Datum) :
    partsOfAll items = items.flatMap fun item => item :: item.parts := by
  induction items with
  | nil => rfl
  | cons item items ih => rw [partsOfAll, ih, List.flatMap_cons, List.cons_append]

theorem parts_eq (datum : Datum) :
    datum.parts = datum.members.flatMap fun item => item :: item.parts := by
  cases datum with
  | list items => exact partsOfAll_eq items
  | boolean | integer | symbol | procedure | foreign => rfl

/-- What stands in a datum is the datum or one of its proper parts. -/
theorem inside_iff {part datum : Datum} :
    Inside part datum ↔ part = datum ∨ part ∈ datum.parts := by
  induction datum with
  | list items ih =>
    rw [parts_eq, members, List.mem_flatMap]
    constructor
    · rintro (_ | ⟨hmem, hpart⟩)
      · exact .inl rfl
      · exact .inr ⟨_, hmem, List.mem_cons.mpr ((ih _ hmem).mp hpart)⟩
    · rintro (rfl | ⟨item, hmem, hpart⟩)
      · exact .self
      · exact .member hmem ((ih item hmem).mpr (List.mem_cons.mp hpart))
  | boolean | integer | symbol | procedure | foreign =>
    constructor
    · rintro ⟨⟩
      exact .inl rfl
    · rintro (rfl | hpart)
      · exact .self
      · exact absurd hpart List.not_mem_nil

/-- The members of a list are nested less deeply. -/
theorem depth_lt_of_mem_members {item datum : Datum} (h : item ∈ datum.members) :
    item.depth < datum.depth := by
  cases datum with
  | list items => exact Nat.lt_succ_of_le (depth_le_depthOfAll h)
  | boolean | integer | symbol | procedure | foreign => exact absurd h List.not_mem_nil

theorem FirstOrder.member {items : List Datum} (h : (Datum.list items).FirstOrder) :
    ∀ item ∈ items, item.FirstOrder := fun item hitem =>
  ⟨procedureFree_list_iff.mp h.free item hitem,
    fun target rest hinside => h.definitions target rest (.member hitem hinside)⟩

end Datum

namespace Evaluation

open Datum (FirstOrder ProcedureFree)

/-- Evaluation makes no procedures where none is defined and none is bound. -/
theorem invariant_firstOrder : Invariant FirstOrder ProcedureFree fun _ => True where
  member h := h.member
  self h := h.free
  definition h _ := absurd .self (h.definitions _ _)
  called h := by
    refine .others (fun name parameters body hvalue => ?_) fun name parameters body hvalue => ?_
    · exact h name parameters body (hvalue ▸ .self)
    · exact h name parameters body (hvalue ▸ .self)
  yields h hoperands := by
    refine (Primitive.yields_of_apply h).preserved ?_ ?_ ?_ hoperands
    · exact fun value _ => nofun
    · exact fun value => nofun
    · exact fun items => Datum.procedureFree_list_iff
  fails _ _ := trivial
  about _ := trivial
  foreign _ := trivial

namespace Course

/-- Having evaluated, one after the other, no expressions but those of a row, in their order and
each no more than once, and having no body of a procedure evaluated. -/
inductive Descends (values : Datum → Prop) : List Datum → Course → Prop
  | ended {items : List Datum} (outcome : Except Error Datum) (env : Environment) :
      Descends values items (.ended outcome env)
  | inner {items : List Datum} {expression : Datum} {env : Environment}
      {next : Datum → Environment → Course} :
      (∀ value after, values value → after.Binds values →
        Descends values items (next value after)) →
      Descends values (expression :: items) (.inner expression env next)
  | skip {items : List Datum} {item : Datum} {course : Course} : Descends values items course →
      Descends values (item :: items) course

variable {rule : Rule} {course : Course} {code values : Datum → Prop} {env : Environment}
  {items : List Datum}

theorem Descends.sublist_visits (h : course.Descends values items)
    (hasks : course.Asks code values) (hrule : Leads code values rule) :
    ((course.visits rule).map Prod.fst).Sublist items := by
  induction h with
  | ended outcome env => exact List.nil_sublist _
  | @inner items expression env next _ ih =>
    cases hasks with
    | inner hexpression henv hnext =>
      rw [visits, List.map_cons]
      refine List.Sublist.cons_cons expression ?_
      rcases hvalue : rule expression env with ⟨fault | value, after⟩
      · exact List.nil_sublist _
      · obtain ⟨hvalues, hafter⟩ := hrule expression env value after hexpression henv hvalue
        exact ih value after hvalues hafter (hnext value after hvalues hafter)
  | skip _ ih => exact (ih hasks).cons _

theorem descends_last (expression : Datum) (env : Environment) (items : List Datum) :
    (last expression env).Descends values (expression :: items) :=
  .inner fun _ _ _ _ => .ended _ _

theorem descends_ofQuotation (rest : List Datum) (env : Environment) :
    (ofQuotation rest env).Descends values rest := by
  unfold ofQuotation
  split <;> exact .ended _ _

theorem descends_ofDefinition (rest : List Datum) (env : Environment) :
    (ofDefinition rest env).Descends values rest := by
  unfold ofDefinition
  split
  · exact .ended _ _
  · split
    · exact .skip (.inner fun _ _ _ _ => .ended _ _)
    · exact .ended _ _
  · split <;> exact .ended _ _
  · exact .ended _ _

theorem descends_ofConditional (rest : List Datum) (env : Environment) :
    (ofConditional rest env).Descends values rest := by
  unfold ofConditional
  split
  · next condition consequent =>
    refine .inner fun value after _ _ => ?_
    split
    · exact descends_last consequent after []
    · exact .ended _ _
  · next condition consequent alternative =>
    refine .inner fun value after _ _ => ?_
    split
    · exact descends_last consequent after [alternative]
    · exact .skip (descends_last alternative after [])
  · exact .ended _ _

theorem descends_ofOperands {next : List Datum → Environment → Course}
    (hnext : ∀ operands env, env.Binds values → (next operands env).Descends values [])
    (rest : List Datum) (henv : env.Binds values) :
    (ofOperands next rest env).Descends values rest := by
  induction rest generalizing next env with
  | nil => exact hnext [] env henv
  | cons operand rest ih =>
    refine .inner fun value after _ hafter => ?_
    exact ih (fun operands env henv => hnext (value :: operands) env henv) hafter

/-- Nothing is called where no procedure is bound. -/
theorem descends_ofApplication (head : Datum) (operands : List Datum)
    (henv : env.Binds ProcedureFree) :
    (ofApplication head operands env).Descends ProcedureFree [] := by
  unfold ofApplication
  split
  · split
    · next hlookup => exact absurd .self (henv.lookup? hlookup _ _ _)
    · exact .ended _ _
    · split <;> exact .ended _ _
  · exact .ended _ _

/-- Where no procedure is bound, an evaluation goes through the members of its expression. -/
theorem descends_of (expression : Datum) (henv : env.Binds ProcedureFree) :
    (of expression env).Descends ProcedureFree expression.members := by
  unfold of
  split
  · exact .ended _ _
  · exact .ended _ _
  · next head rest =>
    refine .skip ?_
    split
    · exact descends_ofQuotation rest env
    · exact descends_ofDefinition rest env
    · exact descends_ofConditional rest env
    · exact descends_ofOperands
        (fun operands env henv => descends_ofApplication head operands henv) rest henv
  · exact .ended _ _
  · exact .ended _ _

end Course

variable {expression : Datum} {env : Environment}

/-- The expressions in the course of an evaluation are among the members of its expression. -/
theorem sublist_visits_of (hexpression : expression.FirstOrder) (henv : env.Binds ProcedureFree)
    (levels : Nat) :
    (((Course.of expression env).visits (within levels)).map Prod.fst).Sublist
      expression.members :=
  (Course.descends_of expression henv).sublist_visits
    (Course.asks_of invariant_firstOrder hexpression henv)
    (Course.leads_within invariant_firstOrder levels)

/-- Each evaluation in the course of such an evaluation is one of them as well. -/
theorem visits_firstOrder (hexpression : expression.FirstOrder) (henv : env.Binds ProcedureFree)
    (levels : Nat) :
    ∀ visit ∈ (Course.of expression env).visits (within levels),
      visit.1.FirstOrder ∧ visit.2.Binds ProcedureFree :=
  (Course.asks_of invariant_firstOrder hexpression henv).visits
    (Course.leads_within invariant_firstOrder levels)

/-- The expressions that are evaluated inside of an evaluation are among the proper parts of its
expression. -/
theorem sublist_activations (hexpression : expression.FirstOrder) (henv : env.Binds ProcedureFree)
    (levels : Nat) :
    ((activations levels expression env).map Activation.expression).Sublist expression.parts := by
  induction levels generalizing expression env with
  | zero => exact List.nil_sublist _
  | succ levels ih =>
    have hvisits := visits_firstOrder hexpression henv levels
    rw [activations, List.map_flatMap, Datum.parts_eq]
    -- Some of the members are evaluated, and inside of each of these some of its own parts.
    refine List.Sublist.trans ?_ ((sublist_visits_of hexpression henv levels).flatMap _)
    rw [List.flatMap_map]
    refine List.Sublist.flatMap_right _ fun visit hvisit => ?_
    obtain ⟨hcode, hbinds⟩ := hvisits visit hvisit
    exact (ih hcode hbinds).cons_cons _

/-- An evaluation needs no more levels than lists are nested in its expression, and one. -/
theorem ne_exhausted_of_depth_lt (hexpression : expression.FirstOrder)
    (henv : env.Binds ProcedureFree) {levels : Nat} (hlevels : expression.depth < levels) :
    (within levels expression env).1 ≠ .error .exhausted := by
  induction levels generalizing expression env with
  | zero => exact absurd hlevels (Nat.not_lt_zero _)
  | succ levels ih =>
    intro hexhausted
    rw [within, ← Course.run_of] at hexhausted
    obtain ⟨visit, hvisit, hinner⟩ := Course.exists_visit_of_exhausted hexhausted
    obtain ⟨hcode, hbinds⟩ := visits_firstOrder hexpression henv levels visit hvisit
    have hmember : visit.1 ∈ expression.members :=
      (sublist_visits_of hexpression henv levels).mem (List.mem_map_of_mem hvisit)
    have hdepth := Datum.depth_lt_of_mem_members hmember
    exact ih hcode hbinds (by omega) hinner

/-- Where no procedure is bound, let an expression have no procedure inside and no definition of
one. Then evaluations are begun for its proper parts only, in the order in which these are written
and for each of them no more than once. So no more evaluations are active at once than one and as
many as lists are nested in the expression: with any greater number of levels the evaluation comes
to the same end. No procedure is bound behind it, however many levels there are. -/
theorem within_firstOrder (hexpression : expression.FirstOrder) (henv : env.Binds ProcedureFree)
    (levels : Nat) :
    ((activations levels expression env).map Activation.expression).Sublist expression.parts ∧
      (expression.depth < levels → (within levels expression env).1 ≠ .error .exhausted ∧
        within levels expression env = within (expression.depth + 1) expression env) ∧
      (within levels expression env).2.Binds ProcedureFree := by
  refine ⟨sublist_activations hexpression henv levels, fun hlevels => ⟨?_, ?_⟩, ?_⟩
  · exact ne_exhausted_of_depth_lt hexpression henv hlevels
  · exact refines_within hlevels expression env
      (ne_exhausted_of_depth_lt hexpression henv (Nat.lt_succ_self _))
  · exact (invariant_firstOrder.within levels hexpression henv).2.2

/-- A definition among the operands of a condition, and a list that is bound. The evaluation begins
seven others. -/
theorem within_firstOrder_definition :
    let expression : Datum := .list [.symbol "if",
      .list [.symbol "=", .integer 1, .list [.symbol "define", .symbol "y", .integer 1]],
      .list [.symbol "cons", .symbol "y", .symbol "x"], .symbol "z"]
    let env : Environment := ⟨[⟨"x", .list [.integer 2]⟩], []⟩
    expression.FirstOrder ∧ env.Binds ProcedureFree ∧
      ((activations 9 expression env).map Activation.expression).length = 7 ∧
      ((activations 9 expression env).map Activation.expression).Sublist expression.parts ∧
      (within 4 expression env).1 = .ok (.list [.integer 1, .integer 2]) ∧
      within 9 expression env = within 4 expression env ∧
      (within 9 expression env).2.Binds ProcedureFree := by
  intro expression env
  have hexpression : expression.FirstOrder := by
    constructor
    · intro name parameters body hinside
      simp [expression, Datum.inside_iff, Datum.parts, Datum.partsOfAll] at hinside
    · intro target rest hinside
      simp [expression, Datum.inside_iff, Datum.parts, Datum.partsOfAll] at hinside
  have henv : env.Binds ProcedureFree := by
    intro frame hframe binding hbinding name parameters body hinside
    obtain rfl := List.mem_singleton.mp hframe
    obtain rfl := List.mem_singleton.mp hbinding
    simp [Datum.inside_iff, Datum.parts, Datum.partsOfAll] at hinside
  have h := within_firstOrder hexpression henv 9
  exact ⟨hexpression, henv, rfl, h.1, rfl, (h.2.1 (by decide)).2, h.2.2⟩

end Evaluation

end SmallScheme
