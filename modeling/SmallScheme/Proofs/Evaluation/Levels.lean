import SmallScheme.Proofs.Evaluation.FrameLaw

/-!
# More levels

Evaluation is stopped where more evaluations would be active at once than the levels allow. A
computation that is not stopped for this reason does not notice the limit: with more levels it has
the same outcome and leaves the same environment (`refines_within`). Nothing in the language goes on
behind a stop, so each way of composing computations keeps this.
-/

namespace SmallScheme.Evaluation

variable {α β : Type}

/-- Doing what another computation does, wherever that one does not run out of levels. -/
def Refines (other computation : Evaluation α) : Prop :=
  ∀ env, (computation env).1 ≠ .error .exhausted → other env = computation env

theorem Refines.refl (computation : Evaluation α) : Refines computation computation :=
  fun _ _ => rfl

/-- A computation that runs out of levels does so behind whatever its first part has done. -/
theorem Refines.bind {first other : Evaluation α} {next otherNext : α → Evaluation β}
    (hfirst : Refines other first) (hnext : ∀ value, Refines (otherNext value) (next value)) :
    Refines (other >>= otherNext) (first >>= next) := by
  intro env hlevels
  rw [bind_apply] at hlevels
  have hsame : other env = first env := by
    refine hfirst env fun hexhausted => hlevels ?_
    rcases hrun : first env with ⟨outcome, after⟩
    rw [hrun] at hexhausted
    rw [show outcome = .error .exhausted from hexhausted]
  rw [bind_apply, bind_apply, hsame]
  rcases hrun : first env with ⟨fault | value, after⟩
  · rfl
  · rw [hrun] at hlevels
    exact hnext value after hlevels

theorem refines_get_bind {next other : Environment → Evaluation α}
    (h : ∀ env, Refines (other env) (next env)) : Refines (get >>= other) (get >>= next) :=
  fun env => h env env

theorem refines_mapM {step other : Datum → Evaluation Datum}
    (h : ∀ item, Refines (other item) (step item)) (items : List Datum) :
    Refines (items.mapM other) (items.mapM step) := by
  induction items with
  | nil => exact .refl _
  | cons item items ih =>
    rw [List.mapM_cons, List.mapM_cons]
    exact (h item).bind fun _ => ih.bind fun _ => .refl _

open Environment (Extends)

/-- A frame is left also behind a computation that runs out of levels, so the outcome of the block
is the outcome of the computation. -/
theorem Refines.inFrame {computation other : Evaluation α} (h : Refines other computation)
    (hextends : Keeps Extends computation) (hother : Keeps Extends other) :
    Refines (inFrame other) (inFrame computation) := by
  intro env hlevels
  rw [inFrame_apply hextends] at hlevels
  rw [inFrame_apply hextends, inFrame_apply hother, h env.push hlevels]

section Rules

variable {rule larger : Rule} (h : ∀ expression, Refines (larger expression) (rule expression))
include h

theorem refines_conditional (rest : List Datum) :
    Refines (conditional larger rest) (conditional rule rest) := by
  unfold conditional
  split
  · refine (h _).bind fun value => ?_
    split
    · exact h _
    · exact .refl _
  · refine (h _).bind fun value => ?_
    split
    · exact h _
    · exact h _
  · exact .refl _

theorem refines_definition (rest : List Datum) :
    Refines (definition larger rest) (definition rule rest) := by
  unfold definition
  split
  · exact .refl _
  · split
    · exact (h _).bind fun value => .refl _
    · exact .refl _
  · exact .refl _
  · exact .refl _

variable (hextends : ∀ expression, Keeps Extends (rule expression))
  (hlarger : ∀ expression, Keeps Extends (larger expression))
include hextends hlarger

theorem refines_call (name : Option Name) (parameters : List Name) (body operands : List Datum) :
    Refines (call larger name parameters body operands)
      (call rule name parameters body operands) := by
  unfold call
  split
  · exact .refl _
  · split
    · exact .refl _
    · next expression _ =>
      refine Refines.inFrame ?_ (body_extends hextends _ _ _) (body_extends hlarger _ _ _)
      exact (Refines.refl _).bind fun _ => h expression

theorem refines_apply (head : Datum) (operands : List Datum) :
    Refines (apply larger head operands) (apply rule head operands) := by
  unfold apply
  split
  · refine refines_get_bind fun env => ?_
    split
    · exact refines_call h hextends hlarger _ _ _ _
    · exact .refl _
    · exact .refl _
  · exact .refl _

/-- One step of evaluation does the same if the evaluations inside it do. -/
theorem refines_step (expression : Datum) :
    Refines (step larger expression) (step rule expression) := by
  unfold step
  split
  · exact .refl _
  · exact .refl _
  · next head rest =>
    split
    · next form _ =>
      cases form with
      | quotation => exact .refl _
      | definition => exact refines_definition h rest
      | conditional => exact refines_conditional h rest
    · exact (refines_mapM h rest).bind fun operands => refines_apply h hextends hlarger _ _
  · exact .refl _
  · exact .refl _

end Rules

/-- With more levels an evaluation does the same, unless it runs out of levels. -/
theorem refines_within {levels more : Nat} (h : levels ≤ more) (expression : Datum) :
    Refines (within more expression) (within levels expression) := by
  induction levels generalizing more expression with
  | zero => exact fun env hlevels => absurd rfl hlevels
  | succ levels ih =>
    -- Both evaluations take one step, and a level less is left to each for what is inside of it.
    obtain ⟨more, rfl⟩ := Nat.exists_eq_succ_of_ne_zero (Nat.ne_of_gt (Nat.zero_lt_of_lt h))
    exact refines_step (fun inner => ih (Nat.le_of_succ_le_succ h) inner) (within_extends levels)
      (within_extends more) expression

end SmallScheme.Evaluation
