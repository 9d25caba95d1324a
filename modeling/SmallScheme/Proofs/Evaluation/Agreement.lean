import SmallScheme.Interpreter
import SmallScheme.Proofs.Environment.Lookup
import SmallScheme.Proofs.Evaluation.Primitives
import SmallScheme.Proofs.Evaluation.Simulation

/-!
# What an evaluation depends on

An evaluation looks up no other names than those that its expression mentions and those that the
values of such names mention in turn. A set of names that contains all of them decides the outcome:
environments in which these names mean the same cannot be told apart, however deep they are and
whatever else they bind.
-/

namespace SmallScheme

/-- Giving the names of a set the same meaning, which mentions no names outside of the set. -/
structure Environment.Alike (names : Set Name) (env other : Environment) : Prop where
  same : ∀ name ∈ names, env.lookup? name = other.lookup? name
  closed : ∀ name ∈ names, ∀ value, env.lookup? name = some value → value.Over names

namespace Environment.Alike

variable {names : Set Name} {env other : Environment}

theorem push (h : Alike names env other) : Alike names env.push other.push where
  same name hname := by
    rw [lookup?_push, lookup?_push]
    exact h.same name hname
  closed name hname value hvalue := h.closed name hname value hvalue

/-- Binding a name to the same value keeps environments alike. -/
theorem bind (h : Alike names env other) (name : Name) {value : Datum} (hvalue : value.Over names) :
    Alike names (env.bind name value) (other.bind name value) where
  same asked hasked := by
    by_cases heq : name = asked
    · subst heq
      rw [lookup?_bind_self, lookup?_bind_self]
    · rw [lookup?_bind_of_ne env value heq, lookup?_bind_of_ne other value heq]
      exact h.same asked hasked
  closed asked hasked found hfound := by
    by_cases heq : name = asked
    · subst heq
      rw [lookup?_bind_self] at hfound
      exact Binding.eq_of_meaning? hfound ▸ hvalue
    · rw [lookup?_bind_of_ne env value heq] at hfound
      exact h.closed asked hasked found hfound

end Environment.Alike

/-- Primitives mention no names but those of their operands. -/
theorem Primitive.over_of_apply {names : Set Name} {primitive : Primitive} {operands : List Datum}
    {result : Datum} (h : primitive.apply operands = .ok result)
    (hoperands : ∀ operand ∈ operands, operand.Over names) : result.Over names := by
  cases yields_of_apply h with
  | integer => exact Datum.over_integer _
  | boolean => exact Datum.over_boolean _
  | first hlist => exact Datum.over_list.mp (hoperands _ hlist) _ List.mem_cons_self
  | rest hlist =>
    have hitems := Datum.over_list.mp (hoperands _ hlist)
    exact Datum.over_list.mpr fun item hitem => hitems item (List.mem_cons_of_mem _ hitem)
  | prepended hhead htail =>
    refine Datum.over_list.mpr fun item hitem => ?_
    rcases List.mem_cons.mp hitem with rfl | hmem
    · exact hoperands _ hhead
    · exact Datum.over_list.mp (hoperands _ htail) item hmem

namespace Simulation

/-- The comparison by the names of a set: the two evaluations yield the same values and the same
errors, and none of the values mentions other names. -/
def agreement (names : Set Name) : Simulation where
  code := Datum.Over names
  values a b := a.Over names ∧ a = b
  environments := Environment.Alike names
  errors := (· = ·)

variable {names : Set Name}

private theorem eq_of_agreement {operands others : List Datum}
    (h : List.Forall₂ (agreement names).values operands others) :
    (∀ operand ∈ operands, operand.Over names) ∧ operands = others := by
  obtain ⟨hover, hequal⟩ := (List.forall₂_and_left _ _).mp h
  exact ⟨hover, List.forall₂_eq_eq_eq ▸ hequal⟩

/-- What a procedure mentions is evaluated over the same names when it is called. -/
theorem calledAlike_self {value : Datum} (h : value.Over names) :
    CalledAlike (Datum.Over names) value value := by
  cases value with
  | procedure name parameters body =>
    obtain ⟨hparameters, hbody⟩ := Datum.over_procedure.mp h
    refine .procedures (fun parameter hparameter => ?_) rfl fun expression hexpression => ?_
    · exact Datum.over_symbol.mpr (hparameters parameter hparameter)
    · exact hbody expression (List.mem_of_mem_head? hexpression)
  | _ => exact .others (fun _ _ _ => Datum.noConfusion) fun _ _ _ => Datum.noConfusion

theorem agreement_lawful (names : Set Name) : (agreement names).Lawful where
  member h := Datum.over_list.mp h
  self h := ⟨h, rfl⟩
  definition {name parameters body defined} h hdefined := by
    have hitems := Datum.over_list.mp h
    have htarget := Datum.over_list.mp (hitems (.list (.symbol name :: parameters)) (by simp))
    refine ⟨Datum.over_procedure.mpr ⟨fun parameter hparameter => ?_, fun expression hmem => ?_⟩,
      rfl⟩
    · have hmem : Datum.symbol parameter ∈ parameters := by
        rw [Evaluation.eq_map_of_parameterNames hdefined]
        exact List.mem_map_of_mem hparameter
      exact Datum.over_symbol.mp (htarget _ (List.mem_cons_of_mem _ hmem))
    · exact hitems expression (by simp [hmem])
  condition h := by rw [h.2]
  called := by
    rintro a b ⟨hover, rfl⟩
    exact calledAlike_self hover
  primitive primitive operands others h := by
    obtain ⟨hover, rfl⟩ := eq_of_agreement h
    rcases hresult : primitive.apply operands with error | result
    · exact .fault rfl
    · exact .value ⟨Primitive.over_of_apply hresult hover, rfl⟩
  lookup {env other} henv name hname := by
    have hmem := Datum.over_symbol.mp hname
    rw [← henv.same name hmem]
    rcases hvalue : env.lookup? name with _ | value
    · exact .none
    · exact .some ⟨henv.closed name hmem value hvalue, rfl⟩
  bind {env other name a b} henv _ := by
    rintro ⟨hover, rfl⟩
    exact henv.bind name hover
  push henv := henv.push
  same _ _ := rfl
  parameter _ _ := rfl
  notDefinable _ := rfl
  foreign _ := rfl
  notProcedure h := congrArg Error.notProcedure h.2
  notApplicable {head operands others} _ h :=
    congrArg (Error.notApplicable head) (eq_of_agreement h).2

/-- The same error stops both evaluations. -/
theorem eq_of_agreement_outcomes {outcome other : Except Fault Datum}
    (h : Outcomes (agreement names).values (agreement names).Faults outcome other) :
    outcome = other := by
  cases h with
  | value h => rw [h.2]
  | fault h =>
    cases h with
    | reported h => rw [show _ = _ from h]
    | exhausted => rfl

end Simulation

namespace Interpreter

/-- Environments that give the names of an expression the same meaning yield the same outcome and
stay alike. -/
theorem evaluate_eq_of_alike (limits : Limits) {names : Set Name} {expression : Datum}
    {env other : Environment} (hexpression : expression.Over names)
    (henv : env.Alike names other) :
    (evaluate limits expression env).1 = (evaluate limits expression other).1 ∧
      (evaluate limits expression env).2.Alike names (evaluate limits expression other).2 := by
  have hlawful := Simulation.agreement_lawful names
  obtain ⟨houtcome, hafter⟩ :=
    Simulation.simulates_within hlawful limits.evaluating hexpression env other henv
  have hequal := Simulation.eq_of_agreement_outcomes houtcome
  exact ⟨congrArg (Except.mapError (settle limits)) hequal, hafter⟩

/-- How bindings are spread over frames never matters: joined into one frame they yield the same
outcome, and all names mean the same behind it. -/
theorem evaluate_joined (limits : Limits) (expression : Datum) (env : Environment) :
    (evaluate limits expression env).1 = (evaluate limits expression env.joined).1 ∧
      ∀ name, (evaluate limits expression env).2.lookup? name =
        (evaluate limits expression env.joined).2.lookup? name := by
  have halike : env.Alike Set.univ env.joined :=
    ⟨fun name _ => (Environment.lookup?_joined env name).symm, fun _ _ _ _ _ _ => trivial⟩
  obtain ⟨houtcome, hafter⟩ := evaluate_eq_of_alike limits (fun _ _ => trivial) halike
  exact ⟨houtcome, fun name => hafter.same name trivial⟩

/-- Let a set of names contain all that an expression mentions and all that the values of such
names mention. Two environments that give these names the same meaning cannot be told apart by the
expression: its evaluation has the same outcome in both, be it a value or an error, and behind it
the names still mean the same. -/
theorem evaluate_agree (limits : Limits) (names : Set Name) (expression : Datum)
    (env other : Environment) (hexpression : ∀ name, expression.Mentions name → name ∈ names)
    (hclosed : ∀ name ∈ names, ∀ value, env.lookup? name = some value →
      ∀ mentioned, value.Mentions mentioned → mentioned ∈ names)
    (hsame : ∀ name ∈ names, env.lookup? name = other.lookup? name) :
    (evaluate limits expression env).1 = (evaluate limits expression other).1 ∧
      ∀ name ∈ names, (evaluate limits expression env).2.lookup? name =
        (evaluate limits expression other).2.lookup? name := by
  obtain ⟨houtcome, hafter⟩ := evaluate_eq_of_alike limits hexpression ⟨hsame, hclosed⟩
  exact ⟨houtcome, hafter.same⟩

/-- A call of a procedure that takes a name from its callers, once in a root frame and once from
two frames that bind more. -/
theorem evaluate_agree_call :
    let procedure : Datum := .procedure (some "f") [] [.symbol "y"]
    let expression : Datum := .list [.symbol "f"]
    let env : Environment := ⟨[⟨"f", procedure⟩, ⟨"y", .integer 2⟩], []⟩
    let other : Environment :=
      ⟨[⟨"z", .integer 5⟩, ⟨"f", procedure⟩], [[⟨"y", .integer 2⟩, ⟨"y", .boolean true⟩]]⟩
    (evaluate .standard expression env).1 = (evaluate .standard expression other).1 ∧
      ∀ name ∈ {name | name = "f" ∨ name = "y"},
        (evaluate .standard expression env).2.lookup? name =
          (evaluate .standard expression other).2.lookup? name := by
  intro procedure expression env other
  have hf : env.lookup? "f" = some procedure := rfl
  have hy : env.lookup? "y" = some (.integer 2) := rfl
  have hprocedure : procedure.Over {name | name = "f" ∨ name = "y"} := by simp [procedure]
  refine evaluate_agree .standard {name | name = "f" ∨ name = "y"} expression env other ?_ ?_ ?_
  · have hexpression : expression.Over {name | name = "f" ∨ name = "y"} := by simp [expression]
    exact hexpression
  · rintro name (rfl | rfl) value hvalue
    · rw [hf] at hvalue
      exact Option.some.inj hvalue ▸ hprocedure
    · rw [hy] at hvalue
      exact Option.some.inj hvalue ▸ Datum.over_integer 2
  · rintro name (rfl | rfl)
    · rfl
    · rfl

end Interpreter

end SmallScheme
