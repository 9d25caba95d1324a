import Mathlib.Order.Defs.Unbundled
import SmallScheme.Evaluation

/-!
# Running computations

A computation runs in an environment and yields an outcome and the environment behind it. The
equations say so for each way of composing computations. What every step of a computation keeps
the computation keeps, whatever its outcome: `Evaluation.Keeps` states this for one relation
between the environments before and behind.
-/

namespace SmallScheme.Evaluation

variable {α β : Type}

/-- A computation goes on behind a value, in the environment behind it, and not behind a fault. -/
theorem bind_apply (first : Evaluation α) (next : α → Evaluation β) (env : Environment) :
    (first >>= next) env = match first env with
      | (.ok value, after) => next value after
      | (.error fault, after) => (.error fault, after) := by
  change (ExceptT.bind first next) env = _
  simp only [ExceptT.bind, ExceptT.mk, Bind.bind, StateT.bind]
  rcases first env with ⟨value | fault, after⟩ <;> rfl

theorem ofExcept_apply (result : Except Error α) (env : Environment) :
    ofExcept result env = (result.mapError .reported, env) := by
  cases result <;> rfl

/-- Keeping a relation between the environment before a computation and the one behind it,
whatever the outcome. -/
def Keeps (relation : Environment → Environment → Prop) (computation : Evaluation α) : Prop :=
  ∀ env, relation env (computation env).2

section Keeps

variable {relation : Environment → Environment → Prop}

/-- Asking for the environment changes nothing. -/
theorem keeps_get_bind {next : Environment → Evaluation α}
    (h : ∀ env, Keeps relation (next env)) : Keeps relation (get >>= next) :=
  fun env => h env env

variable [IsPreorder Environment relation]

theorem keeps_pure (value : α) : Keeps relation (pure value : Evaluation α) :=
  fun env => refl (r := relation) env

theorem keeps_fail (error : Error) : Keeps relation (fail error : Evaluation α) :=
  fun env => refl (r := relation) env

theorem keeps_ofExcept (result : Except Error α) : Keeps relation (ofExcept result) := by
  intro env
  rw [ofExcept_apply]
  exact refl (r := relation) env

/-- Two computations that keep a relation keep it one after the other. -/
theorem Keeps.bind {first : Evaluation α} {next : α → Evaluation β}
    (hfirst : Keeps relation first) (hnext : ∀ value, Keeps relation (next value)) :
    Keeps relation (first >>= next) := by
  intro env
  have hafter := hfirst env
  rw [bind_apply]
  rcases hrun : first env with ⟨fault | value, after⟩
  · simpa only [hrun] using hafter
  · rw [hrun] at hafter
    exact IsTrans.trans _ _ _ hafter (hnext value after)

/-- Computations over the members of a list, from the left, keep what each of them keeps. -/
theorem keeps_mapM {step : α → Evaluation β} {items : List α}
    (h : ∀ item ∈ items, Keeps relation (step item)) : Keeps relation (items.mapM step) := by
  induction items with
  | nil => exact keeps_pure []
  | cons item items ih =>
    rw [List.mapM_cons]
    have hitems := ih fun other hother => h other (List.mem_cons_of_mem _ hother)
    exact (h item List.mem_cons_self).bind fun _ => hitems.bind fun _ => keeps_pure _

end Keeps

end SmallScheme.Evaluation
