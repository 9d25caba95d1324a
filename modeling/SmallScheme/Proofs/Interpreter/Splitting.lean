import SmallScheme.Proofs.Interpreter.Values
import SmallScheme.Proofs.Reader.Joining

/-!
# Programs in pieces

A text that is evaluated to its end and another one on the next line are evaluated like the two one
after the other, in any environment and whatever becomes of the second (`evaluateAll_append`). So a
program may be cut at any newline behind which no expression goes on.
-/

namespace SmallScheme

/-- The class of an error, if a fault is one. -/
def Fault.kind? : Fault → Option Error.Kind
  | .reported error => some error.kind
  | _ => none

theorem Fault.kind?_moved (offset : Nat) (fault : Fault) :
    (fault.moved offset).kind? = fault.kind? := by
  rcases fault with ⟨_ | _⟩ | _ <;> rfl

namespace Interpreter

variable {α : Type} {limits : Limits} {use : Datum → Except Fault α} {text : List Char}
  {env : Environment}

/-- Being what becomes of a program after a part of it has come to its end: the rest of it goes on
from there, and ends alike. Only the position of an unknown token is counted from further in
front. -/
structure Continues (offset : Nat) (before later whole : Run α) : Prop where
  begun : whole.begun = before.begun ++ later.begun
  results : whole.results = before.results ++ later.results
  environment : whole.environment = later.environment
  fault : whole.fault = later.fault ∨ whole.fault = later.fault.map (Fault.moved offset)

/-- A fault of the same class, or none, ends the whole. -/
theorem Continues.kind {offset : Nat} {before later whole : Run α}
    (h : Continues offset before later whole) :
    whole.fault.map Fault.kind? = later.fault.map Fault.kind? := by
  rcases h.fault with hsame | hmoved
  · rw [hsame]
  · rw [hmoved, Option.map_map]
    congr 1
    funext fault
    exact fault.kind?_moved offset

/-- A program that comes to its end goes on with what is written on the next line, whatever its
values are put to. -/
theorem runProgram_append
    (h : (runProgram limits use (Program.ofText limits text) env).fault = none)
    (more : List Char) :
    let before := runProgram limits use (Program.ofText limits text) env
    Continues (text.length + 1) before
      (runProgram limits use (Program.ofText limits more) before.environment)
      (runProgram limits use (Program.ofText limits (text ++ '\n' :: more)) env) := by
  have hend : (Program.ofText limits text).fault = none := last_eq_none_of_run h
  unfold runProgram at h ⊢
  rw [hend] at h ⊢
  rw [Program.ofText_append hend more, run_append _ _ h]
  dsimp only
  -- The rest ends with a fault of its own, or with what stands at its end, which alone is moved.
  rcases run_cases limits use (Program.ofText limits more).expressions
    (run limits use none (Program.ofText limits text).expressions env).environment with
    ⟨later, hlater⟩ | ⟨begun, results, after, hlater⟩
  · rw [hlater, hlater]
    exact ⟨rfl, rfl, rfl, Or.inl rfl⟩
  · rw [hlater, hlater]
    exact ⟨rfl, rfl, rfl, Or.inr rfl⟩

/-- A text that is evaluated to its end may be followed by any other one on the next line. The whole
is evaluated as the first text and then, in the environment that it leaves, the second: it has the
values of both, ends as the second does, with an error of the same class or with none, and leaves
the same environment. -/
theorem evaluateAll_append (h : (evaluateAll limits text env).fault = none) (more : List Char) :
    let before := evaluateAll limits text env
    let later := evaluateAll limits more before.environment
    let whole := evaluateAll limits (text ++ '\n' :: more) env
    whole.begun = before.begun ++ later.begun ∧
      whole.results = before.results ++ later.results ∧
      whole.environment = later.environment ∧
      whole.fault.map Fault.kind? = later.fault.map Fault.kind? ∧
      (whole.fault = later.fault ∨
        whole.fault = later.fault.map (Fault.moved (text.length + 1))) := by
  intro before later whole
  have hcontinues : Continues (text.length + 1) before later whole := runProgram_append h more
  exact ⟨hcontinues.begun, hcontinues.results, hcontinues.environment, hcontinues.kind,
    hcontinues.fault⟩

/-- A definition on the first line holds on the second, up to a parenthesis that closes nothing. -/
theorem evaluateAll_append_definition :
    let text := ['(', 'd', 'e', 'f', 'i', 'n', 'e', ' ', 'a', ' ', '2', ')']
    let whole := evaluateAll .standard (text ++ '\n' :: ['a', ')']) .empty
    (evaluateAll .standard text .empty).fault = none ∧
      whole.results = [.integer 2, .integer 2] ∧
      whole.fault.map Fault.kind? = some (some .syntactic) := by
  intro text whole
  have hfirst : Program.ofText .standard text =
      ⟨[.list [.symbol "define", .symbol "a", .integer 2]], none⟩ := by
    with_unfolding_all rfl
  have hsecond : Program.ofText .standard ['a', ')'] =
      ⟨[.symbol "a"], some (.reported .unexpectedClose)⟩ := by
    with_unfolding_all rfl
  have hend : (evaluateAll .standard text .empty).fault = none := by
    rw [evaluateAll, hfirst]
    rfl
  obtain ⟨_, hresults, _, hkind, _⟩ := evaluateAll_append hend ['a', ')']
  refine ⟨hend, hresults.trans ?_, hkind.trans ?_⟩
  · rw [evaluateAll, evaluateAll, hfirst, hsecond]
    rfl
  · rw [evaluateAll, evaluateAll, hfirst, hsecond]
    rfl

/-- Coming to the end of each of some texts that are evaluated one after the other. -/
def Completes (limits : Limits) : List (List Char) → Environment → Prop
  | [], _ => True
  | text :: texts, env =>
    (evaluateAll limits text env).fault = none ∧
      Completes limits texts (evaluateAll limits text env).environment

/-- A program that is cut at newlines into texts that are complete, but for the last, is interpreted
as a whole to the same end, and leaves the same environment. -/
theorem interpret_joined {texts : List (List Char)} (h : Completes limits texts env)
    (last : List Char) :
    let whole := texts.foldr (fun text rest => text ++ '\n' :: rest) last
    (interpret limits whole env).2 = behind limits (texts ++ [last]) env ∧
      (evaluateAll limits whole env).fault.map Fault.kind? =
        (evaluateAll limits last (behind limits texts env)).fault.map Fault.kind? := by
  induction texts generalizing env with
  | nil => exact ⟨rfl, rfl⟩
  | cons text texts ih =>
    obtain ⟨htext, htexts⟩ := h
    have hcontinues := runProgram_append htext
      (texts.foldr (fun text rest => text ++ '\n' :: rest) last)
    obtain ⟨henvironment, hkind⟩ := ih htexts
    exact ⟨hcontinues.environment.trans henvironment, hcontinues.kind.trans hkind⟩

end Interpreter

end SmallScheme
