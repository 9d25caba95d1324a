import SmallScheme.Datum.Equality
import SmallScheme.Proofs.Evaluation.Congruence

/-!
# Calling equal procedures

Procedures are loosely equal if their parameters and bodies are. Loose equality takes a boolean for
a number, and a call does not, so equal procedures may well return different values
(`Evaluation.call_boolean_integer`). Nothing else makes a difference: if the first expressions of
the two bodies are also of the same kinds throughout, calls have the same outcome up to the names of
procedures (`Evaluation.call_of_equals`).
-/

namespace SmallScheme

open Datum (Congruence SameShape)

namespace Datum

mutual

/-- Whether two data are of the same kinds, wherever something stands in them. -/
def sameKinds : Datum → Datum → Bool
  | .list items, .list others => allSameKinds items others
  | .procedure _ _ body, .procedure _ _ other => allSameKinds body other
  | .boolean _, .boolean _ => true
  | .integer _, .integer _ => true
  | .symbol _, .symbol _ => true
  | .foreign _, .foreign _ => true
  | _, _ => false

/-- Whether two rows of data are of the same kinds one by one. -/
def allSameKinds : List Datum → List Datum → Bool
  | [], [] => true
  | item :: items, other :: others => item.sameKinds other && allSameKinds items others
  | _, _ => false

end

/-- Being the same but for the names of procedures. The two floating zeros count as one. -/
inductive SameButNames : Datum → Datum → Prop
  | same (datum : Datum) : SameButNames datum datum
  | float {a b : Double} : a.equals b → SameButNames (.foreign (.float a)) (.foreign (.float b))
  | list {items others : List Datum} : List.Forall₂ SameButNames items others →
      SameButNames (.list items) (.list others)
  | procedure {name otherName : Option Name} {parameters : List Name} {body other : List Datum} :
      List.Forall₂ SameButNames body other →
      SameButNames (.procedure name parameters body) (.procedure otherName parameters other)

variable {a b : Datum} {items others : List Datum}

theorem congruence_sameButNames : Congruence SameButNames where
  refl := .same
  shape h := by
    cases h with
    | same => exact .self fun _ _ item _ => .same item
    | float => exact .foreign ⟨nofun, nofun⟩
    | list hitems => exact .list hitems
    | procedure => exact .procedure
  list := .list

/-- Rows that are equal and of the same kinds are the same if this holds of their members. -/
theorem sameButNames_all
    (h : ∀ item ∈ items, ∀ other, item.equals other = true → item.sameKinds other = true →
      SameButNames item other)
    (hequal : allEqual items others = true) (hkinds : allSameKinds items others = true) :
    List.Forall₂ SameButNames items others := by
  induction items generalizing others with
  | nil =>
    cases others with
    | nil => exact .nil
    | cons => cases hequal
  | cons item items ih =>
    cases others with
    | nil => cases hequal
    | cons other others =>
      rw [allEqual, Bool.and_eq_true] at hequal
      rw [allSameKinds, Bool.and_eq_true] at hkinds
      refine .cons (h item List.mem_cons_self other hequal.1 hkinds.1) ?_
      exact ih (fun item hitem => h item (List.mem_cons_of_mem _ hitem)) hequal.2 hkinds.2

theorem sameButNames_foreign {value other : Foreign}
    (hequal : (Datum.foreign value).equals (.foreign other) = true) :
    SameButNames (.foreign value) (.foreign other) := by
  cases value with
  | null =>
    cases other with
    | null => exact .same _
    | float | text => cases hequal
  | float value =>
    cases other with
    | float other => exact .float hequal
    | null | text => cases hequal
  | text value =>
    cases other with
    | text other =>
      obtain rfl : value = other := by simpa only [equals, atomsEqual, beq_iff_eq] using hequal
      exact .same _
    | null | float => cases hequal

/-- Equal data of the same kinds are the same but for the names of procedures. -/
theorem sameButNames_of_equals (hequal : a.equals b = true) (hkinds : a.sameKinds b = true) :
    SameButNames a b := by
  induction a generalizing b with
  | list items ih =>
    cases b with
    | list others =>
      exact .list (sameButNames_all (fun item hitem _ => ih item hitem) hequal hkinds)
    | _ => cases hkinds
  | procedure name parameters body ih =>
    cases b with
    | procedure otherName others other =>
      rw [equals, Bool.and_eq_true, beq_iff_eq] at hequal
      obtain ⟨rfl, hbody⟩ := hequal
      exact .procedure (sameButNames_all (fun item hitem _ => ih item hitem) hbody hkinds)
    | _ => cases hkinds
  | boolean value =>
    cases b with
    | boolean other =>
      cases value <;> cases other <;> first | exact .same _ | cases hequal
    | _ => cases hkinds
  | integer value =>
    cases b with
    | integer other =>
      obtain rfl : value = other := by
        simpa only [equals, atomsEqual, number?, numbersEqual, beq_iff_eq] using hequal
      exact .same _
    | _ => cases hkinds
  | symbol name =>
    cases b with
    | symbol other =>
      obtain rfl : name = other := by simpa only [equals, atomsEqual, beq_iff_eq] using hequal
      exact .same _
    | _ => cases hkinds
  | foreign value =>
    cases b with
    | foreign other => exact sameButNames_foreign hequal
    | _ => cases hkinds

/-- What is the same but for names is nested equally deep and shows the same numbers, also in
bodies, so that the same obstacle keeps both from being described. -/
theorem SameButNames.obstacle?_eq (h : SameButNames a b) (limits : Limits) (levels : Nat) :
    obstacle? limits levels a = obstacle? limits levels b := by
  induction a generalizing b levels with
  | list items ih =>
    cases h with
    | same => rfl
    | list hitems =>
      cases levels with
      | zero => rfl
      | succ levels =>
        rw [obstacle?, obstacle?, obstacleAmong?_eq, obstacleAmong?_eq]
        exact findSome?_eq_of_forall₂
          (forall₂_imp_of_mem (fun item hitem _ hmember => ih item hitem hmember levels) hitems)
  | procedure =>
    cases h with
    | same => rfl
    | procedure hbody =>
      rw [obstacle?, obstacle?, congruence_sameButNames.printingObstacleAmong?_eq hbody]
  | boolean | integer | symbol | foreign => cases h <;> rfl

end Datum

/-- The same obstacle keeps errors from being worded that show the same data but for names. -/
theorem Error.Alike.obstacle?_eq_of_names {error other : Error}
    (h : error.Alike Datum.SameButNames other) (limits : Limits) :
    error.obstacle? limits = other.obstacle? limits := by
  rw [Error.obstacle?, Error.obstacle?, Datum.obstacleAmong?_eq, Datum.obstacleAmong?_eq]
  exact findSome?_eq_of_forall₂ (h.described.imp fun _ _ hdata => hdata.obstacle?_eq limits _)

namespace Evaluation

open Interpreter (settle)

variable {name otherName : Option Name} {parameters otherParameters : List Name}
  {body other : List Datum}

theorem comparison_sameButNames : Comparison Datum.SameButNames Datum.SameButNames where
  expressions := Datum.congruence_sameButNames
  results := Datum.congruence_sameButNames
  self h := h
  definition := .procedure
  called h := by
    cases h with
    | same => exact ⟨rfl, rel_head? (Datum.congruence_sameButNames.refl_all _)⟩
    | procedure hbody => exact ⟨rfl, rel_head? hbody⟩

/-- Equal bodies whose first expressions are of the same kinds begin with the same expression. -/
theorem head?_of_allEqual (hequal : Datum.allEqual body other = true)
    (hkinds : Datum.allSameKinds (body.take 1) (other.take 1) = true) :
    Option.Rel Datum.SameButNames body.head? other.head? := by
  rcases body with _ | ⟨expression, rest⟩ <;> rcases other with _ | ⟨otherExpression, otherRest⟩
  · exact .none
  · cases hequal
  · cases hequal
  · rw [Datum.allEqual, Bool.and_eq_true] at hequal
    simp only [List.take_succ_cons, Datum.allSameKinds, Bool.and_eq_true] at hkinds
    exact .some (Datum.sameButNames_of_equals hequal.1 hkinds.1)

/-- Let two procedures be loosely equal, and let the first expressions of their bodies be of the
same kinds throughout. Then calls with the same operands in the same environment have the same
outcome, with as many evaluations active at once: the same value but for the names of procedures, or
errors of the same class. Neither call changes the environment. -/
theorem call_of_equals (levels : Nat) (limits : Limits)
    (hequal : (Datum.procedure name parameters body).equals
      (.procedure otherName otherParameters other) = true)
    (hkinds : Datum.allSameKinds (body.take 1) (other.take 1) = true) (operands : List Datum)
    (env : Environment) :
    let first := call (within levels) name parameters body operands env
    let second := call (within levels) otherName otherParameters other operands env
    Outcomes Datum.SameButNames Fault.SameClass (first.1.mapError (settle limits))
        (second.1.mapError (settle limits)) ∧
      first.2 = env ∧ second.2 = env := by
  rw [Datum.equals, Bool.and_eq_true, beq_iff_eq] at hequal
  obtain ⟨rfl, hbodies⟩ := hequal
  have hunchanged (name : Option Name) (body : List Datum) :
      Keeps (· = ·) (call (within levels) name parameters body operands) :=
    keeps_call (within_extends levels) name parameters body operands
  refine ⟨?_, (hunchanged name body env).symm, (hunchanged otherName other env).symm⟩
  -- The operands and the environment are the same for both calls; from there on the evaluations may
  -- drift apart in the names of procedures that stand in the bodies.
  have hbody := head?_of_allEqual hbodies hkinds
  have houtcome := (Simulation.simulates_call_upTo comparison_sameButNames levels name otherName
    parameters hbody (Datum.congruence_sameButNames.refl_all operands) env env
    (.refl Datum.congruence_sameButNames env)).1
  refine houtcome.mapError fun fault otherFault hfault => ?_
  cases hfault with
  | reported halike =>
    exact Interpreter.settle_sameClass halike.kind (halike.obstacle?_eq_of_names limits)
  | exhausted => exact .same _

/-- Two procedures of different names that return equal lists. -/
theorem call_of_equals_quotation :
    let quotation : Datum := .quoted (.list [.integer 1, .symbol "x"])
    let first : Datum := .procedure (some "f") [] [quotation]
    let second : Datum := .procedure none [] [quotation]
    first.equals second = true ∧
      Outcomes Datum.SameButNames Fault.SameClass
        ((call (within 3) (some "f") [] [quotation] [] .empty).1.mapError (settle .standard))
        ((call (within 3) none [] [quotation] [] .empty).1.mapError (settle .standard)) ∧
      (call (within 3) (some "f") [] [quotation] [] .empty).2 = .empty ∧
      (call (within 3) none [] [quotation] [] .empty).2 = .empty := by
  intro quotation first second
  have hequal : first.equals second = true := rfl
  exact ⟨hequal, call_of_equals 3 .standard hequal rfl [] .empty⟩

/-- A procedure that returns a boolean equals one that returns an integer. -/
theorem call_boolean_integer :
    (Datum.procedure (some "f") [] [.boolean true]).equals
        (.procedure (some "f") [] [.integer 1]) = true ∧
      call (within 1) (some "f") [] [.boolean true] [] .empty = (.ok (.boolean true), .empty) ∧
      call (within 1) (some "f") [] [.integer 1] [] .empty = (.ok (.integer 1), .empty) :=
  ⟨rfl, rfl, rfl⟩

end Evaluation

end SmallScheme
