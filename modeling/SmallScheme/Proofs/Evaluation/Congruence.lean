import SmallScheme.Proofs.Environment.Lookup
import SmallScheme.Proofs.Evaluation.Correspondence

/-!
# Evaluation keeps congruences

Values are related by a congruence, and environments if they have the same frames up to related
values. Primitives look at the shape of their operands only, so they come to related results or to
errors that are alike. If in addition related procedures have the same parameters and corresponding
first expressions, evaluation keeps the relations (`Simulation.corresponds_upTo`).
-/

namespace SmallScheme

open Datum (Congruence SameShape)

variable {related : Datum → Datum → Prop}

/-- Giving a related value to the same name. -/
def Binding.Related (related : Datum → Datum → Prop) (binding other : Binding) : Prop :=
  binding.name = other.name ∧ related binding.value other.value

/-- Having the same frames up to related values. -/
def Environment.Related (related : Datum → Datum → Prop) (env other : Environment) : Prop :=
  List.Forall₂ (List.Forall₂ (Binding.Related related)) env.frames other.frames

/-- Related values give a name a meaning, or neither does. -/
theorem Binding.Related.meaning? (h : Congruence related) {binding other : Binding}
    (hbinding : binding.Related related other) :
    Option.Rel related binding.meaning? other.meaning? := by
  obtain ⟨name, value⟩ := binding
  obtain ⟨otherName, otherValue⟩ := other
  have hvalue : related value otherValue := hbinding.2
  cases h.shape hvalue with
  | @foreign a b hnull =>
    cases a with
    | null =>
      obtain rfl := hnull.mp rfl
      exact .none
    | float | text =>
      cases b with
      | null => cases hnull.mpr rfl
      | float | text => exact .some hvalue
  | boolean | integer | symbol | list | procedure => exact .some hvalue

namespace Environment.Related

variable {env other : Environment}

theorem refl (h : Congruence related) (env : Environment) : env.Related related env :=
  List.forall₂_same.mpr fun _ _ => List.forall₂_same.mpr fun _ _ => ⟨rfl, h.refl _⟩

theorem push (h : env.Related related other) : env.push.Related related other.push :=
  .cons .nil h

theorem bind (h : env.Related related other) (name : Name) {a b : Datum} (hvalue : related a b) :
    (env.bind name a).Related related (other.bind name b) := by
  rcases h with _ | ⟨hinnermost, houter⟩
  exact .cons (.cons ⟨rfl, hvalue⟩ hinnermost) houter

/-- Related frames bind a name to related values, or neither binds it. -/
theorem find? {frame otherFrame : Frame}
    (h : List.Forall₂ (Binding.Related related) frame otherFrame) (name : Name) :
    Option.Rel (Binding.Related related) (frame.find? (·.name == name))
      (otherFrame.find? (·.name == name)) := by
  induction h with
  | nil => exact .none
  | cons hbinding _ ih =>
    rw [List.find?_cons, List.find?_cons, hbinding.1]
    split
    · exact .some hbinding
    · exact ih

theorem binding? (h : env.Related related other) (name : Name) :
    Option.Rel (Binding.Related related) (env.binding? name) (other.binding? name) := by
  unfold Environment.binding?
  rw [Environment.Related] at h
  generalize env.frames = frames at h
  generalize other.frames = otherFrames at h
  induction h with
  | nil => exact .none
  | cons hframe _ ih =>
    rw [List.findSome?_cons, List.findSome?_cons]
    rcases rel_cases (find? hframe name) with ⟨hfound, hother⟩ | ⟨_, _, hfound, hother, hbinding⟩
    · rw [hfound, hother]
      exact ih
    · rw [hfound, hother]
      exact .some hbinding

/-- Names mean related values in related environments. -/
theorem lookup? (hcongruence : Congruence related) (h : env.Related related other) (name : Name) :
    Option.Rel related (env.lookup? name) (other.lookup? name) := by
  rw [lookup?_eq, lookup?_eq]
  rcases rel_cases (h.binding? name) with ⟨hfound, hother⟩ | ⟨_, _, hfound, hother, hbinding⟩
  · rw [hfound, hother]
    exact .none
  · rw [hfound, hother]
    exact hbinding.meaning? hcongruence

end Environment.Related

namespace Primitive

variable {a b : Datum} {operands others : List Datum}

theorem integer?_eq (h : Congruence related) (hrelated : related a b) :
    integer? a = integer? b := by
  cases h.shape hrelated <;> rfl

theorem outcomes_step (h : Congruence related) (operator : Name) (operation : Int → Int → Int)
    (accumulated : Int) (hrelated : related a b) :
    Outcomes Eq (Error.Alike related) (step operator operation accumulated a)
      (step operator operation accumulated b) := by
  unfold step
  rw [integer?_eq h hrelated]
  split
  · unfold checked
    split
    · exact .value rfl
    · exact .fault (.refl h _)
  · exact .fault ⟨rfl, .cons hrelated .nil⟩

theorem outcomes_fold (h : Congruence related) (operator : Name) (operation : Int → Int → Int)
    (start : Int) (hoperands : List.Forall₂ related operands others) :
    Outcomes Eq (Error.Alike related) (fold operator operation start operands)
      (fold operator operation start others) := by
  induction hoperands generalizing start with
  | nil => exact .value rfl
  | cons hrelated _ ih =>
    unfold fold
    rw [List.foldlM_cons, List.foldlM_cons]
    exact (outcomes_step h operator operation start hrelated).bind fun _ _ heq => heq ▸ ih _

theorem outcomes_difference (h : Congruence related)
    (hoperands : List.Forall₂ related operands others) :
    Outcomes Eq (Error.Alike related) (difference operands) (difference others) := by
  rcases hoperands with _ | ⟨hfirst, hrest⟩
  · exact .fault (.refl h _)
  · unfold difference
    dsimp only
    rw [integer?_eq h hfirst]
    split
    · exact outcomes_fold h "-" (· - ·) _ hrest
    · exact .fault ⟨rfl, .cons hfirst .nil⟩

/-- The first members and the other members of related lists are related. -/
theorem outcomes_uncons (h : Congruence related) (operator : Name)
    (hoperands : List.Forall₂ related operands others) :
    Outcomes (fun parts otherParts => related parts.1 otherParts.1 ∧
        List.Forall₂ related parts.2 otherParts.2) (Error.Alike related)
      (uncons operator operands) (uncons operator others) := by
  have hcount : Error.Alike related (.notSingle operator operands.length)
      (.notSingle operator others.length) := ⟨rfl, .nil⟩
  have hrefused {a b : Datum} (hrelated : related a b) :
      Error.Alike related (.notList operator a) (.notList operator b) :=
    ⟨rfl, .cons hrelated .nil⟩
  rcases hoperands with _ | ⟨hoperand, _ | _⟩
  · exact .fault hcount
  · cases h.shape hoperand with
    | list hitems =>
      rcases hitems with _ | ⟨hfirst, hrest⟩
      · exact .fault (.refl h _)
      · exact .value ⟨hfirst, hrest⟩
    | boolean | integer | symbol | procedure | foreign => exact .fault (hrefused hoperand)
  · simp only [uncons]
    exact .fault hcount

theorem outcomes_prepend (h : Congruence related)
    (hoperands : List.Forall₂ related operands others) :
    Outcomes related (Error.Alike related) (prepend operands) (prepend others) := by
  have hcount : Error.Alike related (.consArity operands.length) (.consArity others.length) :=
    ⟨rfl, .nil⟩
  have hrefused {a b : Datum} (hrelated : related a b) :
      Error.Alike related (.consOnto a) (.consOnto b) :=
    ⟨rfl, .cons hrelated .nil⟩
  rcases hoperands with _ | ⟨hhead, _ | ⟨htail, _ | _⟩⟩
  · exact .fault hcount
  · exact .fault hcount
  · cases h.shape htail with
    | list hitems => exact .value (h.list (.cons hhead hitems))
    | boolean | integer | symbol | procedure | foreign => exact .fault (hrefused htail)
  · simp only [prepend]
    exact .fault hcount

theorem outcomes_comparable (h : Congruence related) (hrelated : related a b) :
    Outcomes Eq (Error.Alike related) (comparable a) (comparable b) := by
  unfold comparable
  rw [integer?_eq h hrelated]
  split
  · exact .value rfl
  · exact .fault ⟨rfl, .cons hrelated .nil⟩

/-- A primitive makes related results of related operands, or errors that are alike. -/
theorem outcomes_apply (h : Congruence related) (primitive : Primitive)
    (hoperands : List.Forall₂ related operands others) :
    Outcomes related (Error.Alike related) (primitive.apply operands) (primitive.apply others) := by
  have hsame (value : Datum) : related value value := h.refl value
  cases primitive with
  | add => exact (outcomes_fold h "+" (· + ·) 0 hoperands).map fun _ _ heq => heq ▸ hsame _
  | multiply => exact (outcomes_fold h "*" (· * ·) 1 hoperands).map fun _ _ heq => heq ▸ hsame _
  | subtract => exact (outcomes_difference h hoperands).map fun _ _ heq => heq ▸ hsame _
  | car => exact (outcomes_uncons h "car" hoperands).map fun _ _ hparts => hparts.1
  | cdr => exact (outcomes_uncons h "cdr" hoperands).map fun _ _ hparts => h.list hparts.2
  | cons => exact outcomes_prepend h hoperands
  | equal =>
    have hcompared := Outcomes.mapM (hoperands.imp fun _ _ => outcomes_comparable h)
    refine hcompared.map fun _ _ heq => ?_
    rw [List.forall₂_eq_eq_eq] at heq
    exact heq ▸ hsame _

end Primitive

open Evaluation

/-- What evaluation needs of a relation between expressions and one between values. -/
structure Evaluation.Comparison (code values : Datum → Datum → Prop) : Prop where
  expressions : Congruence code
  results : Congruence values
  /-- Quoted data and literals are values as they are written. -/
  self {a b : Datum} : code a b → values a b
  definition {name : Name} {parameters : List Name} {body other : List Datum} :
    List.Forall₂ code body other →
    values (.procedure name parameters body) (.procedure name parameters other)
  called {name otherName : Option Name} {parameters otherParameters : List Name}
    {body other : List Datum} :
    values (.procedure name parameters body) (.procedure otherName otherParameters other) →
    parameters = otherParameters ∧ Option.Rel code body.head? other.head?

namespace Simulation

variable {code values : Datum → Datum → Prop} {a b : Datum}

/-- The comparison by related frames and by errors that are alike. -/
def upTo (related : Datum → Datum → Prop) : Simulation where
  code expression := related expression expression
  values := related
  environments := Environment.Related related
  errors := Error.Alike related

theorem holds_eq (h : Congruence values) (hvalue : values a b) : holds a = holds b := by
  cases h.shape hvalue <;> rfl

theorem calledTogether_upTo (h : Comparison code values) (hvalue : values a b) :
    (upTo values).CalledTogether code a b := by
  cases h.results.shape hvalue with
  | procedure =>
    obtain ⟨rfl, hbody⟩ := h.called hvalue
    exact .procedures (fun _ _ => h.expressions.refl _) hbody
      (fun _ _ => ⟨rfl, .nil⟩) ⟨rfl, .nil⟩
  | boolean | integer | symbol | list | foreign =>
    exact .others (fun _ _ _ => Datum.noConfusion) fun _ _ _ => Datum.noConfusion

theorem corresponds_upTo (h : Comparison code values) : (upTo values).Corresponds code where
  shape := h.expressions.shape
  self := h.self
  definition hcode _ := by
    cases h.expressions.shape hcode with
    | list hitems =>
      rcases hitems with _ | ⟨_, _ | ⟨_, hbody⟩⟩
      exact h.definition hbody
  condition := holds_eq h.results
  called := calledTogether_upTo h
  primitive primitive _ _ := Primitive.outcomes_apply h.results primitive
  lookup henv name _ := henv.lookup? h.results name
  bind henv _ hvalue := henv.bind _ hvalue
  push henv := henv.push
  same _ _ := .refl h.results _
  parameter _ hcode := ⟨rfl, .cons (h.self hcode) .nil⟩
  notDefinable hcode := ⟨rfl, .cons (h.self hcode) .nil⟩
  foreign hcode := ⟨rfl, .cons (h.self hcode) .nil⟩
  notProcedure hvalue := ⟨rfl, .cons hvalue .nil⟩
  notApplicable hhead hoperands :=
    ⟨rfl, .cons (h.self hhead) (.cons (h.results.list hoperands) .nil)⟩

/-- Procedures of the same parameters are called with related outcomes if their first expressions
correspond, whatever their names. -/
theorem simulates_call_upTo (h : Comparison code values) (levels : Nat)
    (name otherName : Option Name) (parameters : List Name)
    {body other operands others : List Datum}
    (hbody : Option.Rel code body.head? other.head?)
    (hoperands : List.Forall₂ values operands others) :
    (upTo values).Simulates values (call (within levels) name parameters body operands)
      (call (within levels) otherName parameters other others) := by
  have hcorresponds := corresponds_upTo h
  refine simulates_call hcorresponds (fun _ _ => hcorresponds.within levels) (within_extends levels)
    (fun _ _ => h.expressions.refl _) hbody (fun _ _ => ?_) ?_ hoperands
  · exact ⟨rfl, .nil⟩
  · exact ⟨rfl, .nil⟩

end Simulation

namespace Interpreter

/-- Two errors of the same class that are kept from being worded alike are settled alike. -/
theorem settle_sameClass {limits : Limits} {error other : Error} (hkind : error.kind = other.kind)
    (hobstacle : error.obstacle? limits = other.obstacle? limits) :
    (settle limits (.reported error)).SameClass (settle limits (.reported other)) := by
  simp only [settle, Error.fault, hobstacle]
  cases other.obstacle? limits with
  | none => exact .reported hkind
  | some fault => exact .same _

end Interpreter

end SmallScheme
