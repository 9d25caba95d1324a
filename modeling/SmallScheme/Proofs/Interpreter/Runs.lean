import SmallScheme.Interpreter

/-!
# Runs of expressions

A run goes on behind an expression whose value could be put to use, in the environment that its
evaluation left, and it ends with any other. So the run of a row of expressions is that of its first
part, and behind it that of the others (`run_append`).
-/

namespace SmallScheme.Interpreter

variable {α : Type} {limits : Limits} {use : Datum → Except Fault α}

theorem exists_of_bind_eq_ok {outcome : Except Fault Datum} {result : α}
    (h : outcome.bind use = .ok result) :
    ∃ value, outcome = .ok value ∧ use value = .ok result := by
  cases outcome with
  | error fault => cases h
  | ok value => exact ⟨value, rfl, h⟩

theorem run_cons_of_error (last : Option Fault) {expression : Datum} {env : Environment}
    {fault : Fault} (rest : List Datum)
    (h : (evaluate limits expression env).1.bind use = .error fault) :
    run limits use last (expression :: rest) env =
      ⟨[expression], [], some fault, (evaluate limits expression env).2⟩ := by
  simp only [run, h]

theorem run_cons_of_ok (last : Option Fault) {expression : Datum} {env : Environment} {result : α}
    (rest : List Datum) (h : (evaluate limits expression env).1.bind use = .ok result) :
    run limits use last (expression :: rest) env =
      let later := run limits use last rest (evaluate limits expression env).2
      ⟨expression :: later.begun, result :: later.results, later.fault, later.environment⟩ := by
  simp only [run, h]

/-- A run that comes to the end of its expressions goes on with more expressions as if these were
run on their own. -/
theorem run_append (last : Option Fault) {expressions : List Datum} {env : Environment}
    (more : List Datum) (h : (run limits use none expressions env).fault = none) :
    run limits use last (expressions ++ more) env =
      let before := run limits use none expressions env
      let later := run limits use last more before.environment
      ⟨before.begun ++ later.begun, before.results ++ later.results, later.fault,
        later.environment⟩ := by
  induction expressions generalizing env with
  | nil => rfl
  | cons expression rest ih =>
    rw [List.cons_append]
    rcases huse : (evaluate limits expression env).1.bind use with fault | result
    · rw [run_cons_of_error none rest huse] at h
      cases h
    · rw [run_cons_of_ok none rest huse] at h ⊢
      rw [run_cons_of_ok last (rest ++ more) huse, ih h]
      rfl

/-- A run that is stopped by nothing has nothing at its end that could stop it. -/
theorem last_eq_none_of_run {last : Option Fault} {expressions : List Datum} {env : Environment}
    (h : (run limits use last expressions env).fault = none) : last = none := by
  induction expressions generalizing env with
  | nil => exact h
  | cons expression rest ih =>
    rcases huse : (evaluate limits expression env).1.bind use with fault | result
    · rw [run_cons_of_error last rest huse] at h
      cases h
    · rw [run_cons_of_ok last rest huse] at h
      exact ih h

/-- A run that does not come to the end of its expressions does not depend on what stands behind
them. -/
theorem run_append_of_fault (last : Option Fault) {expressions : List Datum} {env : Environment}
    (more : List Datum) (h : (run limits use none expressions env).fault ≠ none) :
    run limits use last (expressions ++ more) env = run limits use none expressions env := by
  induction expressions generalizing env with
  | nil => exact absurd rfl h
  | cons expression rest ih =>
    rw [List.cons_append]
    rcases huse : (evaluate limits expression env).1.bind use with fault | result
    · rw [run_cons_of_error none rest huse, run_cons_of_error last (rest ++ more) huse]
    · rw [run_cons_of_ok none rest huse] at h ⊢
      rw [run_cons_of_ok last (rest ++ more) huse, ih h]

/-- What stands at the end of a run decides about nothing but the fault of one that comes to its
end. -/
theorem run_cases (limits : Limits) (use : Datum → Except Fault α) (expressions : List Datum)
    (env : Environment) :
    (∃ result, ∀ last, run limits use last expressions env = result) ∨
      ∃ begun results after, ∀ last,
        run limits use last expressions env = ⟨begun, results, last, after⟩ := by
  induction expressions generalizing env with
  | nil => exact Or.inr ⟨[], [], env, fun last => rfl⟩
  | cons expression rest ih =>
    rcases huse : (evaluate limits expression env).1.bind use with fault | result
    · exact Or.inl ⟨_, fun last => run_cons_of_error last rest huse⟩
    · rcases ih (evaluate limits expression env).2 with
        ⟨later, hlater⟩ | ⟨begun, results, after, hlater⟩
      · refine Or.inl ⟨⟨expression :: later.begun, result :: later.results, later.fault,
          later.environment⟩, fun last => ?_⟩
        rw [run_cons_of_ok last rest huse, hlater]
      · refine Or.inr ⟨expression :: begun, result :: results, after, fun last => ?_⟩
        rw [run_cons_of_ok last rest huse, hlater]

theorem bind_of_evaluate_eq {expression : Datum} {env after : Environment} {value : Datum}
    (h : evaluate limits expression env = (.ok value, after)) (use : Datum → Except Fault α) :
    (evaluate limits expression env).1.bind use = use value := by
  rw [h]
  rfl

theorem bind_of_evaluate_error {expression : Datum} {env after : Environment} {fault : Fault}
    (h : evaluate limits expression env = (.error fault, after)) (use : Datum → Except Fault α) :
    (evaluate limits expression env).1.bind use = .error fault := by
  rw [h]
  rfl

/-- Where a run that only collects values is stopped, and what it leaves. -/
inductive Stopped (limits : Limits) (last : Option Fault) (expressions : List Datum)
    (env : Environment) (fault : Fault) : Run Datum → Prop
  /-- Behind all of its expressions, by what stands there. -/
  | ended {values : List Datum} {after : Environment} : last = some fault →
      run limits .ok none expressions env = ⟨expressions, values, none, after⟩ →
      Stopped limits last expressions env fault ⟨expressions, values, some fault, after⟩
  /-- At an expression without a value. Nothing behind it is evaluated. -/
  | failed {before behind : List Datum} {expression : Datum} {values : List Datum}
      {middle after : Environment} :
      expressions = before ++ expression :: behind →
      run limits .ok none before env = ⟨before, values, none, middle⟩ →
      evaluate limits expression middle = (.error fault, after) →
      Stopped limits last expressions env fault ⟨before ++ [expression], values, some fault, after⟩

theorem run_cons_of_evaluate_eq {expression value : Datum} {env after : Environment}
    (h : evaluate limits expression env = (.ok value, after)) (last : Option Fault)
    (rest : List Datum) :
    run limits .ok last (expression :: rest) env =
      let later := run limits .ok last rest after
      ⟨expression :: later.begun, value :: later.results, later.fault, later.environment⟩ := by
  rw [run_cons_of_ok last rest (bind_of_evaluate_eq h .ok), h]

theorem stopped_run {last : Option Fault} {expressions : List Datum} {env : Environment}
    {fault : Fault} (h : (run limits .ok last expressions env).fault = some fault) :
    Stopped limits last expressions env fault (run limits .ok last expressions env) := by
  induction expressions generalizing env with
  | nil =>
    cases show last = some fault from h
    exact .ended rfl rfl
  | cons expression rest ih =>
    rcases hvalue : evaluate limits expression env with ⟨cause | value, after⟩
    · rw [run_cons_of_error last rest (bind_of_evaluate_error hvalue .ok), hvalue] at h ⊢
      cases h
      have hfirst : expression :: rest = [] ++ expression :: rest := rfl
      exact .failed hfirst rfl hvalue
    · rw [run_cons_of_evaluate_eq hvalue] at h ⊢
      have hlater := ih h
      generalize run limits .ok last rest after = later at hlater
      cases hlater with
      | ended hlast hrest =>
        exact .ended hlast (by rw [run_cons_of_evaluate_eq hvalue, hrest])
      | @failed before behind culprit values middle last hrest hbefore hculprit =>
        have hexpressions : expression :: rest = (expression :: before) ++ culprit :: behind := by
          rw [hrest, List.cons_append]
        have hfront : run limits .ok none (expression :: before) env =
            ⟨expression :: before, value :: values, none, middle⟩ := by
          rw [run_cons_of_evaluate_eq hvalue, hbefore]
        exact .failed hexpressions hfront hculprit

/-- What becomes of a run if its values are put to use, compared with the run that only collects
them. -/
inductive Used (limits : Limits) (use : Datum → Except Fault α) (expressions : List Datum)
    (env : Environment) (all : Run Datum) : Run α → Prop
  /-- All values can be put to use. -/
  | entirely {results : List α} : all.results.map use = results.map .ok →
      Used limits use expressions env all ⟨all.begun, results, all.fault, all.environment⟩
  /-- A value cannot be put to use. Its expression has been evaluated, and nothing behind it is. -/
  | partly {before behind : List Datum} {expression : Datum} {values : List Datum}
      {middle after : Environment} {value : Datum} {results : List α} {fault : Fault} :
      expressions = before ++ expression :: behind →
      run limits .ok none before env = ⟨before, values, none, middle⟩ →
      evaluate limits expression middle = (.ok value, after) →
      values ++ [value] <+: all.results →
      values.map use = results.map .ok → use value = .error fault →
      Used limits use expressions env all ⟨before ++ [expression], results, some fault, after⟩

/-- A value in front that can be put to use changes nothing about those behind it. -/
theorem Used.cons {expression : Datum} {rest : List Datum} {env after : Environment}
    {value : Datum} {result : α} {all : Run Datum} {later : Run α}
    (h : Used limits use rest after all later)
    (hvalue : evaluate limits expression env = (.ok value, after)) (huse : use value = .ok result) :
    Used limits use (expression :: rest) env
      ⟨expression :: all.begun, value :: all.results, all.fault, all.environment⟩
      ⟨expression :: later.begun, result :: later.results, later.fault, later.environment⟩ := by
  cases h with
  | entirely hresults =>
    refine .entirely ?_
    rw [List.map_cons, List.map_cons, huse, hresults]
  | @partly before behind culprit values middle last shown results fault hrest hbefore hculprit
      hprefix hresults hfault =>
    have hrun : run limits .ok none (expression :: before) env =
        ⟨expression :: before, value :: values, none, middle⟩ := by
      rw [run_cons_of_evaluate_eq hvalue, hbefore]
    have hfront : (value :: values).map use = (result :: results).map .ok := by
      rw [List.map_cons, List.map_cons, huse, hresults]
    have hexpressions : expression :: rest = (expression :: before) ++ culprit :: behind := by
      rw [hrest, List.cons_append]
    exact .partly hexpressions hrun hculprit (List.cons_prefix_cons.mpr ⟨rfl, hprefix⟩) hfront
      hfault

/-- Up to the first value that cannot be put to use, a run is the one that only collects the
values. -/
theorem used_run (use : Datum → Except Fault α) (last : Option Fault) (expressions : List Datum)
    (env : Environment) :
    Used limits use expressions env (run limits .ok last expressions env)
      (run limits use last expressions env) := by
  induction expressions generalizing env with
  | nil => exact .entirely rfl
  | cons expression rest ih =>
    rcases hvalue : evaluate limits expression env with ⟨fault | value, after⟩
    · rw [run_cons_of_error last rest (bind_of_evaluate_error hvalue use),
        run_cons_of_error last rest (bind_of_evaluate_error hvalue .ok)]
      exact .entirely rfl
    · have huse := bind_of_evaluate_eq hvalue use
      rw [run_cons_of_evaluate_eq hvalue]
      rcases hresult : use value with fault | result
      · rw [run_cons_of_error last rest (huse.trans hresult), hvalue]
        have hfirst : expression :: rest = [] ++ expression :: rest := rfl
        exact .partly hfirst rfl hvalue (List.cons_prefix_cons.mpr ⟨rfl, List.nil_prefix⟩) rfl
          hresult
      · rw [run_cons_of_ok last rest (huse.trans hresult), hvalue]
        exact (ih after).cons hvalue hresult

end SmallScheme.Interpreter
