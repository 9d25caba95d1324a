import SmallScheme.Proofs.Data.Obstacles
import SmallScheme.Proofs.Evaluation.Levels
import SmallScheme.Proofs.Interpreter.Runs
import SmallScheme.Proofs.Reader.Limits

/-!
# Greater limits

The limits bound how deep reading, evaluating and wording errors may go. What does not meet them
does not depend on them: a text whose run ends with a value, or with any error but one of depth, is
interpreted alike with all greater limits (`interpret_of_le`).
-/

namespace SmallScheme.Interpreter

variable {limits larger : Limits}

/-- Ending a run because something is nested too deeply. -/
def EndsByDepth (fault : Option Fault) : Prop :=
  ∃ activity, fault = some (.reported (.tooDeep activity))

/-- What keeps an error from being worded by its depth comes to an error of depth. -/
theorem endsByDepth_settle {error : Error} (h : (error.fault limits).OfDepth) :
    EndsByDepth (some (settle limits (.reported error))) := by
  rw [settle]
  generalize error.fault limits = fault at h
  cases h with
  | exhausted => exact ⟨.evaluating, rfl⟩
  | unprintable => exact ⟨.printing, rfl⟩

/-- An error comes to itself or to an error of depth, or to the fault of a number that is too long
and that it shows. -/
theorem settle_cases (limits : Limits) (error : Error) :
    settle limits (.reported error) = .reported error ∨
      EndsByDepth (some (settle limits (.reported error))) ∨
      settle limits (.reported error) = .numberTooLong ∧ ¬ error.Writable := by
  rcases error.fault_cases limits with
    hfault | hdepth | ⟨hfault, datum, hmem, number, hshows, hlong⟩
  · left
    rw [settle, hfault]
  · exact Or.inr (Or.inl (endsByDepth_settle hdepth))
  · refine Or.inr (Or.inr ⟨by rw [settle, hfault], fun hwritable => ?_⟩)
    rw [hwritable datum hmem number hshows] at hlong
    cases hlong

/-- A fault that does not come to an error of depth comes to the same with greater limits. -/
theorem settle_of_le (h : limits.calls ≤ larger.calls) {fault : Fault}
    (hdepth : ¬ EndsByDepth (some (settle limits fault))) :
    settle larger fault = settle limits fault := by
  cases fault with
  | reported error =>
    have hobstacle : error.obstacle? larger = error.obstacle? limits := by
      refine Error.obstacle?_of_le h fun obstacle hobstacle hofDepth => hdepth ?_
      refine endsByDepth_settle ?_
      rw [Error.fault, Option.mem_def.mp hobstacle]
      exact hofDepth
    rw [settle, settle, Error.fault, Error.fault, hobstacle]
  | _ => rfl

/-- An evaluation that does not end with an error of depth is the same with greater limits. -/
theorem evaluate_of_le (h : limits.calls ≤ larger.calls) {expression : Datum} {env : Environment}
    (hdepth : ∀ activity,
      (evaluate limits expression env).1 ≠ .error (.reported (.tooDeep activity))) :
    evaluate larger expression env = evaluate limits expression env := by
  have hrefines := Evaluation.refines_within (Nat.div_le_div_right (c := 2) h) expression env
  change (Evaluation.within limits.evaluating expression env).1 ≠ .error .exhausted →
    Evaluation.within larger.evaluating expression env =
      Evaluation.within limits.evaluating expression env at hrefines
  unfold evaluate at hdepth ⊢
  rcases hrun : Evaluation.within limits.evaluating expression env with ⟨fault | value, after⟩
  · rw [hrun] at hrefines hdepth
    have hexhausted : fault ≠ .exhausted := by
      rintro rfl
      exact hdepth .evaluating rfl
    have hsettle : ¬ EndsByDepth (some (settle limits fault)) := by
      rintro ⟨activity, hactivity⟩
      exact hdepth activity (congrArg Except.error (Option.some.inj hactivity))
    rw [hrefines (by simpa using hexhausted)]
    exact congrArg (fun fault => (Except.error fault, after)) (settle_of_le h hsettle)
  · rw [hrun] at hrefines
    rw [hrefines nofun]
    rfl

section Runs

variable {α : Type} {use : Datum → Except Fault α} {last : Option Fault}

/-- A run that does not end with an error of depth is the same with greater limits. -/
theorem run_of_le (h : limits.calls ≤ larger.calls) {expressions : List Datum} {env : Environment}
    (hdepth : ¬ EndsByDepth (run limits use last expressions env).fault) :
    run larger use last expressions env = run limits use last expressions env := by
  induction expressions generalizing env with
  | nil => rfl
  | cons expression rest ih =>
    have hsame : evaluate larger expression env = evaluate limits expression env := by
      refine evaluate_of_le h fun activity hactivity => hdepth ⟨activity, ?_⟩
      have huse : (evaluate limits expression env).1.bind use =
          .error (.reported (.tooDeep activity)) := by
        rw [hactivity]
        rfl
      rw [run_cons_of_error last rest huse]
    -- The expressions behind the first are run in the same environment on both sides.
    rcases huse : (evaluate limits expression env).1.bind use with fault | result
    · rw [run_cons_of_error last rest huse, run_cons_of_error last rest (by rw [hsame, huse]),
        hsame]
    · rw [run_cons_of_ok last rest huse] at hdepth ⊢
      rw [run_cons_of_ok last rest (by rw [hsame, huse]), hsame, ih hdepth]

/-- The run of a program that does not end with an error of depth is the same with greater
limits. -/
theorem runProgram_of_le (h : limits.calls ≤ larger.calls) {text : List Char} {env : Environment}
    (hdepth : ¬ EndsByDepth (runProgram limits use (Program.ofText limits text) env).fault) :
    runProgram larger use (Program.ofText larger text) env =
      runProgram limits use (Program.ofText limits text) env := by
  unfold runProgram at hdepth ⊢
  rcases Program.ofText_of_le h text with heq | ⟨hfault, more, hmore⟩
  · rw [heq]
    exact run_of_le h hdepth
  · rw [← hmore]
    rw [hfault] at hdepth ⊢
    -- The run ends before it comes to where the text is nested too deeply.
    rcases run_cases limits use (Program.ofText limits text).expressions env with
      ⟨result, hresult⟩ | ⟨begun, results, after, hresult⟩
    · have hstopped : (run limits use none (Program.ofText limits text).expressions env).fault ≠
          none := by
        rw [hresult none, ← hresult (some (.reported (.tooDeep .reading)))]
        intro hend
        cases last_eq_none_of_run hend
      rw [hresult (some _), ← hresult none] at hdepth ⊢
      have hsame := run_of_le h hdepth
      rw [← hsame] at hstopped
      rw [run_append_of_fault _ more hstopped, hsame]
    · rw [hresult (some _)] at hdepth
      exact absurd ⟨.reading, rfl⟩ hdepth

end Runs

/-- A text that is evaluated to a value, or to any error but one of depth, has the same values and
leaves the same environment with greater limits. -/
theorem evaluateAll_of_le (h : limits.calls ≤ larger.calls) {text : List Char} {env : Environment}
    (hdepth : ¬ EndsByDepth (evaluateAll limits text env).fault) :
    evaluateAll larger text env = evaluateAll limits text env :=
  runProgram_of_le h hdepth

/-- Let a text be interpreted in some environment to a value, or to an error that is not one of
depth. With any greater limits it is interpreted to the same value or the same error, and leaves
the same frames. -/
theorem interpret_of_le {limits larger : Limits} (h : limits.calls ≤ larger.calls)
    (text : List Char) (env : Environment)
    (hdepth : ∀ activity, (interpret limits text env).1 ≠ .error (.reported (.tooDeep activity))) :
    interpret larger text env = interpret limits text env := by
  have hrun : evaluateAll larger text env = evaluateAll limits text env := by
    refine evaluateAll_of_le h ?_
    rintro ⟨activity, hfault⟩
    refine hdepth activity ?_
    rw [interpret, outcome, hfault]
  rw [interpret, interpret, hrun]

/-- A text that needs four levels: it defines a name and takes the first member of the value, which
has none. -/
theorem interpret_of_le_call :
    let text := ['(', 'c', 'a', 'r', ' ', '(', 'd', 'e', 'f', 'i', 'n', 'e', ' ', 'a', ' ', '\'',
      '(', ')', ')', ')']
    interpret ⟨8⟩ text .empty = (.error (.reported (.emptyList "car")), ⟨[⟨"a", .list []⟩], []⟩) ∧
      interpret .standard text .empty = interpret ⟨8⟩ text .empty := by
  intro text
  have hprogram : Program.ofText ⟨8⟩ text = ⟨[.list [.symbol "car", .list [.symbol "define",
      .symbol "a", (Datum.list []).quoted]]], none⟩ := by
    with_unfolding_all rfl
  have hsmall : interpret ⟨8⟩ text .empty =
      (.error (.reported (.emptyList "car")), ⟨[⟨"a", .list []⟩], []⟩) := by
    rw [interpret, evaluateAll, hprogram]
    rfl
  refine ⟨hsmall, interpret_of_le (by decide) text .empty fun activity => ?_⟩
  rw [hsmall]
  exact nofun

end SmallScheme.Interpreter
