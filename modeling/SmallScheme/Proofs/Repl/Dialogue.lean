import SmallScheme.Proofs.Evaluation.Arithmetic
import SmallScheme.Proofs.Evaluation.Moderate
import SmallScheme.Proofs.Interpreter.Faults
import SmallScheme.Repl

/-!
# Dialogues

A session answers each line with the values of its expressions, up to the first expression that
cannot be read, evaluated or printed, and then with the error of that expression. What it prints is
the dialogue of its lines, in every environment, and lines know of each other by the environment
only, whose depth never changes (`session_dialogue`). One thing ends a session before its last line:
a number with too many digits, which the host has bound or which is the exact result of an overflow.
Among moderate numbers this cannot happen.
-/

namespace SmallScheme

open Interpreter

variable {limits : Limits}

namespace Environment

/-- Nothing but bindings in the innermost frame does not change the depth. -/
theorem Extends.depth_eq {before after : Environment} (h : before.Extends after) :
    after.depth = before.depth := by
  rw [depth, depth, frames, frames, h.outer, List.length_cons, List.length_cons]

end Environment

namespace Interpreter

/-- Whatever becomes of a run, it extends the innermost frame at most. -/
theorem run_extends {α : Type} (limits : Limits) (use : Datum → Except Fault α)
    (last : Option Fault) (expressions : List Datum) (env : Environment) :
    env.Extends (run limits use last expressions env).environment := by
  have hinvariant : Invariant limits (fun _ => True) env.Extends (fun _ => True) fun _ => True :=
    { value := fun _ _ _ => trivial
      fault := fun _ _ _ => trivial
      environment := fun {expression middle} _ hmiddle => IsTrans.trans _ _ _ hmiddle
        (Evaluation.within_extends limits.evaluating expression middle) }
  exact (hinvariant.run (fun _ _ _ _ => trivial) last (fun _ _ => trivial)
    (refl (r := Environment.Extends) env)).2

end Interpreter

namespace Repl

/-- What a session makes of a line: the texts of values, and possibly a fault behind them. -/
structure Answer where
  printed : List String
  fault : Option Fault

namespace Answer

/-- The fault of an answer, if it is not reported but ends the session. -/
def unreported? (answer : Answer) : Option Fault :=
  match answer.fault with
  | some (.reported _) => none
  | fault => fault

/-- An answer as it is printed: each text on a line of its own, and an error on one. -/
def text (answer : Answer) : String :=
  String.join (answer.printed.map (· ++ "\n")) ++
    match answer.fault with
    | some (.reported error) => report error
    | _ => ""

end Answer

/-- Being the answer to a line, with the environment behind it. -/
inductive Answers (limits : Limits) (line : List Char) (env : Environment) :
    Answer → Environment → Prop
  /-- All of the line is read, evaluated and printed. -/
  | complete {printed : List String} :
      (evaluateAll limits line env).fault = none →
      (evaluateAll limits line env).results.map (·.print? limits) = printed.map .ok →
      Answers limits line env ⟨printed, none⟩ (evaluateAll limits line env).environment
  /-- Some expression cannot be read. All before it are evaluated, and their values printed. -/
  | unread {values : List Datum} {after : Environment} {printed : List String} {fault : Fault} :
      (Program.ofText limits line).fault = some fault →
      run limits .ok none (Program.ofText limits line).expressions env =
        ⟨(Program.ofText limits line).expressions, values, none, after⟩ →
      (evaluateAll limits line env).results = values →
      values.map (·.print? limits) = printed.map .ok →
      Answers limits line env ⟨printed, some fault⟩ after
  /-- Some expression has no value. Nothing behind it is evaluated. -/
  | unevaluated {before behind : List Datum} {expression : Datum} {values : List Datum}
      {middle after : Environment} {printed : List String} {fault : Fault} :
      (Program.ofText limits line).expressions = before ++ expression :: behind →
      run limits .ok none before env = ⟨before, values, none, middle⟩ →
      evaluate limits expression middle = (.error fault, after) →
      (evaluateAll limits line env).results = values →
      values.map (·.print? limits) = printed.map .ok →
      Answers limits line env ⟨printed, some fault⟩ after
  /-- Some value cannot be printed. Its expression has been evaluated, and nothing behind it is. -/
  | unprinted {before behind : List Datum} {expression : Datum} {values : List Datum}
      {middle after : Environment} {value : Datum} {printed : List String} {fault : Fault} :
      (Program.ofText limits line).expressions = before ++ expression :: behind →
      run limits .ok none before env = ⟨before, values, none, middle⟩ →
      evaluate limits expression middle = (.ok value, after) →
      values ++ [value] <+: (evaluateAll limits line env).results →
      values.map (·.print? limits) = printed.map .ok →
      value.print? limits = .error fault →
      Answers limits line env ⟨printed, some fault⟩ after

section Answer

variable {line : List Char} {env : Environment}

/-- The run whose values are printed. -/
def printing (limits : Limits) (line : List Char) (env : Environment) : Run String :=
  runProgram limits (·.print? limits) (Program.ofText limits line) env

theorem used_printing (limits : Limits) (line : List Char) (env : Environment) :
    Used limits (·.print? limits) (Program.ofText limits line).expressions env
      (evaluateAll limits line env) (printing limits line env) :=
  used_run (·.print? limits) (Program.ofText limits line).fault _ env

/-- What stops a line without a numeral that is too long is an error, or a number that is too
long. -/
theorem ordinary_of_printing (hline : ¬ HasLongNumeral line) {fault : Fault}
    (h : (printing limits line env).fault = some fault) : fault.Ordinary := by
  have hprint (value : Datum) (fault : Fault) (_ : True)
      (hvalue : value.print? limits = .error fault) : fault.Ordinary := by
    rcases Datum.print?_eq_error hvalue with rfl | ⟨rfl, _⟩
    · exact Or.inl ⟨_, rfl⟩
    · exact Or.inr rfl
  rcases ((invariant_ordinary limits).run hprint (Program.ofText limits line).fault
    (fun _ _ => trivial) trivial).1 fault h with hordinary | hlast
  · exact hordinary
  · exact Or.inl (Program.exists_eq_reported hline hlast)

/-- Among moderate numbers only an error stops such a line, and nothing but moderate values are
bound. -/
theorem printing_moderate (limits : Limits) (hline : ¬ HasLongNumeral line) (henv : env.Moderate) :
    (∀ fault, (printing limits line env).fault = some fault → ∃ error, fault = .reported error) ∧
      (printing limits line env).environment.Moderate := by
  have hprint (value : Datum) (fault : Fault) (hmoderate : value.Moderate)
      (hvalue : value.print? limits = .error fault) :
      ∃ error, fault = .reported error ∧ error.Writable :=
    ⟨_, hmoderate.unprintable_of_print? hvalue, Error.writable_of_described rfl⟩
  obtain ⟨hfault, hafter⟩ := (invariant_moderate limits).run hprint
    (Program.ofText limits line).fault
    (fun expression hmem => (Program.written_of_mem expression hmem).moderate) henv
  refine ⟨fun fault h => ?_, hafter⟩
  rcases hfault fault h with ⟨error, rfl, _⟩ | hlast
  · exact ⟨error, rfl⟩
  · exact Program.exists_eq_reported hline hlast

/-- The texts printed and the fault behind them are the answer to a line. -/
theorem answers_printing (limits : Limits) (line : List Char) (env : Environment) :
    Answers limits line env
      ⟨(printing limits line env).results, (printing limits line env).fault⟩
      (printing limits line env).environment := by
  have hused := used_printing limits line env
  generalize printing limits line env = run at hused
  cases hused with
  | partly hexpressions hbefore hvalue hprefix hresults hfault =>
    exact .unprinted hexpressions hbefore hvalue hprefix hresults hfault
  | entirely hresults =>
    rcases hend : (evaluateAll limits line env).fault with _ | fault
    · exact .complete hend hresults
    · have hstopped : Stopped limits (Program.ofText limits line).fault
          (Program.ofText limits line).expressions env fault (evaluateAll limits line env) :=
        stopped_run hend
      generalize hall : evaluateAll limits line env = all at hstopped hresults
      cases hstopped with
      | ended hlast hrun => exact .unread hlast hrun (by rw [hall]) hresults
      | failed hexpressions hbefore hculprit =>
        exact .unevaluated hexpressions hbefore hculprit (by rw [hall]) hresults

/-- A session prints the answer to a line, and is ended by a fault that it does not report. -/
theorem answer_eq (limits : Limits) (line : List Char) (env : Environment) :
    let result : Answer := ⟨(printing limits line env).results, (printing limits line env).fault⟩
    (answer limits line env).fault = result.unreported? ∧
      (answer limits line env).output = result.text ∧
      (answer limits line env).environment = (printing limits line env).environment := by
  simp only [answer, printing, Answer.unreported?, Answer.text]
  generalize runProgram limits (·.print? limits) (Program.ofText limits line) env = run
  obtain ⟨begun, results, _ | fault, after⟩ := run
  · exact ⟨rfl, String.append_empty.symm, rfl⟩
  · cases fault with
    | reported error => exact ⟨rfl, rfl, rfl⟩
    | _ => exact ⟨rfl, String.append_empty.symm, rfl⟩

/-- Every line is answered. The session goes on behind it unless a number is too long, which none is
among moderate numbers, and the environment is as deep as before. -/
theorem exists_answers (limits : Limits) (env : Environment) (hline : ¬ HasLongNumeral line) :
    ∃ result, Answers limits line env result (answer limits line env).environment ∧
      (answer limits line env).fault = result.unreported? ∧
      (answer limits line env).output = result.text ∧
      (result.unreported? = none ∨ result.unreported? = some .numberTooLong) ∧
      (env.Moderate → result.unreported? = none ∧
        (answer limits line env).environment.Moderate) ∧
      (answer limits line env).environment.depth = env.depth := by
  obtain ⟨hfault, houtput, henvironment⟩ := answer_eq limits line env
  have hextends : env.Extends (printing limits line env).environment :=
    run_extends limits (·.print? limits) _ _ env
  rw [henvironment]
  refine ⟨_, answers_printing limits line env, hfault, houtput, ?_, fun henv => ?_,
    hextends.depth_eq⟩
  · rcases hstop : (printing limits line env).fault with _ | fault
    · exact Or.inl rfl
    · rcases ordinary_of_printing hline hstop with ⟨error, rfl⟩ | rfl
      · exact Or.inl rfl
      · exact Or.inr rfl
  · obtain ⟨hreported, hmoderate⟩ := printing_moderate limits hline henv
    refine ⟨?_, hmoderate⟩
    rcases hstop : (printing limits line env).fault with _ | fault
    · rfl
    · obtain ⟨error, rfl⟩ := hreported fault hstop
      rfl

end Answer

/-- The answers to some lines, each given in the environment behind the line before, and the fault
that ends the session before its last line, if there is one. The depth of the environment is the
same in front of every line. -/
inductive Dialogue (limits : Limits) :
    List (List Char) → Environment → List Answer → Option Fault → Environment → Prop
  | nil (env : Environment) : Dialogue limits [] env [] none env
  | cons {line : List Char} {lines : List (List Char)} {env middle last : Environment}
      {result : Answer} {results : List Answer} {fault : Option Fault} :
      Answers limits line env result middle → result.unreported? = none →
      middle.depth = env.depth → Dialogue limits lines middle results fault last →
      Dialogue limits (line :: lines) env (result :: results) fault last
  /-- A fault that is not reported ends the session, and no later line is taken. -/
  | stopped {line : List Char} {lines : List (List Char)} {env last : Environment}
      {result : Answer} {fault : Fault} :
      Answers limits line env result last → result.unreported? = some fault →
      last.depth = env.depth → Dialogue limits (line :: lines) env [result] (some fault) last

section Session

variable {prompt : String} {line : List Char} {lines : List (List Char)} {env : Environment}

theorem session_cons (h : (answer limits line env).fault = none) :
    session limits prompt (line :: lines) env =
      let here := answer limits line env
      let later := session limits prompt lines here.environment
      ⟨prompt ++ here.output ++ later.output, here.log ++ later.log, later.fault,
        later.environment⟩ := by
  simp only [session, h]

theorem session_cons_of_fault {fault : Fault} (h : (answer limits line env).fault = some fault) :
    session limits prompt (line :: lines) env =
      { answer limits line env with output := prompt ++ (answer limits line env).output } := by
  simp only [session, h]

theorem exists_dialogue (limits : Limits) (prompt : String) (env : Environment)
    (hlines : ∀ line ∈ lines, ¬ HasLongNumeral line) :
    let whole := session limits prompt lines env
    (whole.fault = none ∨ whole.fault = some .numberTooLong) ∧
      (env.Moderate → whole.fault = none) ∧ whole.environment.depth = env.depth ∧
      ∃ results, Dialogue limits lines env results whole.fault whole.environment ∧
        whole.output = String.join (results.map fun result => prompt ++ result.text) ++
          if whole.fault.isNone then prompt ++ "\n" else "" := by
  induction lines generalizing env with
  | nil => exact ⟨Or.inl rfl, fun _ => rfl, rfl, [], .nil env, by simp [session]⟩
  | cons line lines ih =>
    obtain ⟨hline, hrest⟩ := List.forall_mem_cons.mp hlines
    obtain ⟨result, hresult, hfault, houtput, hordinary, hmoderate, hdepth⟩ :=
      exists_answers limits env hline
    rcases hordinary with hnone | hlong
    · obtain ⟨hends, hquiet, hlastDepth, results, hdialogue, hlater⟩ :=
        ih (answer limits line env).environment hrest
      rw [session_cons (hfault.trans hnone)]
      refine ⟨hends, fun henv => hquiet (hmoderate henv).2, hlastDepth.trans hdepth,
        result :: results, .cons hresult hnone hdepth hdialogue, ?_⟩
      dsimp only
      rw [houtput, hlater, List.map_cons, String.join_cons]
      simp only [String.append_assoc]
    · have hstop := hfault.trans hlong
      rw [session_cons_of_fault hstop]
      refine ⟨Or.inr hstop, fun henv => ?_, hdepth, [result], ?_, ?_⟩
      · rw [(hmoderate henv).1] at hlong
        cases hlong
      · dsimp only
        rw [hstop]
        exact .stopped hresult hlong hdepth
      · dsimp only
        rw [hstop, houtput, List.map_cons, List.map_nil, String.join_cons, String.join_nil]
        exact String.append_empty.symm.trans String.append_empty.symm

/-- A session over two rows of lines is a session over the first, and then one over the second in
the environment behind the first, unless it has been ended before. -/
theorem session_append (limits : Limits) (prompt : String) (earlier later : List (List Char))
    (env : Environment) :
    let opening := session limits prompt earlier env
    let whole := session limits prompt (earlier ++ later) env
    (opening.fault ≠ none → whole = opening) ∧
      (opening.fault = none → ∃ text, opening.output = text ++ prompt ++ "\n" ∧
        whole.output = text ++ (session limits prompt later opening.environment).output ∧
        whole.fault = (session limits prompt later opening.environment).fault ∧
        whole.environment = (session limits prompt later opening.environment).environment) := by
  induction earlier generalizing env with
  | nil =>
    refine ⟨fun h => absurd rfl h, fun _ => ⟨"", ?_, ?_, rfl, rfl⟩⟩
    · simp [session]
    · simp [session]
  | cons line earlier ih =>
    rw [List.cons_append]
    rcases hfault : (answer limits line env).fault with _ | fault
    · obtain ⟨hended, hopen⟩ := ih (answer limits line env).environment
      rw [session_cons hfault, session_cons hfault]
      refine ⟨fun h => ?_, fun h => ?_⟩
      · dsimp only at h ⊢
        rw [hended h]
      · obtain ⟨text, hopening, houtput, hlast, henvironment⟩ := hopen h
        refine ⟨prompt ++ (answer limits line env).output ++ text, ?_, ?_, hlast, henvironment⟩
        · dsimp only
          rw [hopening]
          simp only [String.append_assoc]
        · dsimp only
          rw [houtput]
          simp only [String.append_assoc]
    · rw [session_cons_of_fault hfault, session_cons_of_fault hfault]
      refine ⟨fun _ => rfl, fun h => ?_⟩
      rw [show _ = none from h] at hfault
      cases hfault

end Session

/-- A session over lines without a numeral that is too long prints the prompt and the answer for
each line, and at last the prompt once more. The answers are those of the lines in the environments
behind one another, and a row of later lines is answered as if the session had begun with it in the
environment behind the earlier ones, which is as deep as the first. All lines are taken unless a
number is too long to be written, and where the environment binds moderate numbers only, which may
be greater than the words that programs compute with, none is. A session that meets such a number
has answered the lines before as any other, and prints nothing behind the values before it. -/
theorem session_dialogue (limits : Limits) (prompt : String) {lines : List (List Char)}
    (env : Environment) (hlines : ∀ line ∈ lines, ¬ HasLongNumeral line) :
    let whole := session limits prompt lines env
    (whole.fault = none ∨ whole.fault = some .numberTooLong) ∧
    (env.Moderate → whole.fault = none) ∧
    (∃ results, Dialogue limits lines env results whole.fault whole.environment ∧
      whole.output = String.join (results.map fun result => prompt ++ result.text) ++
        if whole.fault.isNone then prompt ++ "\n" else "") ∧
    ∀ earlier later, lines = earlier ++ later →
      let opening := session limits prompt earlier env
      opening.environment.depth = env.depth ∧ (opening.fault ≠ none → whole = opening) ∧
        (opening.fault = none → ∃ text, opening.output = text ++ prompt ++ "\n" ∧
          whole.output = text ++ (session limits prompt later opening.environment).output ∧
          whole.fault = (session limits prompt later opening.environment).fault ∧
          whole.environment = (session limits prompt later opening.environment).environment) := by
  obtain ⟨hends, hquiet, _, hdialogue⟩ := exists_dialogue limits prompt env hlines
  refine ⟨hends, hquiet, hdialogue, ?_⟩
  rintro earlier later rfl
  have hearlier : ∀ line ∈ earlier, ¬ HasLongNumeral line :=
    fun line hmem => hlines line (List.mem_append_left later hmem)
  obtain ⟨_, _, hdepth, _⟩ := exists_dialogue limits prompt env hearlier
  exact ⟨hdepth, session_append limits prompt earlier later env⟩

/-- The value of `a` is nested too deeply to be printed, but it is bound when the next line is read,
and `b` is not. -/
theorem session_dialogue_unprinted :
    let first := "(define a '(((((1)))))) (define b 1)".toList
    let second := "(cdr a) b".toList
    let middle : Environment := ⟨[⟨"a", .list [.list [.list [.list [.list [.integer 1]]]]]⟩], []⟩
    (∀ line ∈ [first, second], ¬ HasLongNumeral line) ∧ Environment.empty.Moderate ∧
      (session ⟨14⟩ "> " [first, second] .empty).fault = none ∧
      (session ⟨14⟩ "> " [first] .empty).environment = middle ∧
      (session ⟨14⟩ "> " [first, second] .empty).output =
        "> error: SchemeRecursionError: Value nested too deeply to print\n" ++
          "> ()\nerror: SchemeUnboundName: Cannot lookup unbound symbol b\n> \n" := by
  intro first second middle
  have hshort : ∀ line ∈ [first, second], ¬ HasLongNumeral line :=
    List.forall_mem_cons.mpr ⟨not_hasLongNumeral (by decide),
      List.forall_mem_singleton.mpr (not_hasLongNumeral (by decide))⟩
  have hempty : Environment.empty.Moderate := Environment.computed_empty.moderate
  have hfirst : Program.ofText ⟨14⟩ first = ⟨[.list [.symbol "define", .symbol "a",
      (Datum.list [.list [.list [.list [.list [.integer 1]]]]]).quoted],
      .list [.symbol "define", .symbol "b", .integer 1]], none⟩ := by
    with_unfolding_all rfl
  have hsecond : Program.ofText ⟨14⟩ second =
      ⟨[.list [.symbol "cdr", .symbol "a"], .symbol "b"], none⟩ := by
    with_unfolding_all rfl
  obtain ⟨_, hunprinted⟩ : ∃ log, answer ⟨14⟩ first .empty =
      ⟨"error: SchemeRecursionError: Value nested too deeply to print\n", log, none, middle⟩ := by
    rw [answer, runProgram, hfirst]
    exact ⟨_, rfl⟩
  obtain ⟨_, _, hunbound⟩ : ∃ log after, answer ⟨14⟩ second middle =
      ⟨"()\nerror: SchemeUnboundName: Cannot lookup unbound symbol b\n", log, none, after⟩ := by
    rw [answer, runProgram, hsecond]
    exact ⟨_, _, rfl⟩
  refine ⟨hshort, hempty, (session_dialogue ⟨14⟩ "> " .empty hshort).2.1 hempty, ?_, ?_⟩
  · simp only [session, hunprinted]
  · simp only [session, hunprinted, hunbound]
    rfl

/-- The product of the greatest word and `x` has too many digits to be told about. This ends the
session in the middle of the first line, and the second one is not taken. -/
theorem session_dialogue_stopped :
    let first := "1 (* 9223372036854775807 x) 2".toList
    let second := "3".toList
    let env : Environment := ⟨[⟨"x", .integer (Numeral.tenTo 4299)⟩], []⟩
    (∀ line ∈ [first, second], ¬ HasLongNumeral line) ∧
      (session .standard "> " [first, second] env).fault = some .numberTooLong ∧
      (session .standard "> " [first, second] env).output = "> 1\n" := by
  intro first second env
  have hshort : ∀ line ∈ [first, second], ¬ HasLongNumeral line :=
    List.forall_mem_cons.mpr ⟨not_hasLongNumeral (by decide),
      List.forall_mem_singleton.mpr (not_hasLongNumeral (by decide))⟩
  let product : Datum := .list [.symbol "*", .integer Numeral.greatest, .symbol "x"]
  have hfirst : Program.ofText .standard first = ⟨[.integer 1, product, .integer 2], none⟩ := by
    with_unfolding_all rfl
  have hlong : Numeral.isTooLong (Numeral.greatest * Numeral.tenTo 4299) = true := by
    decide +kernel
  have hproduct : (evaluate .standard product env).1 = .error .numberTooLong := by
    have hrun (number : Int) : Evaluation.within Limits.standard.evaluating product
        ⟨[⟨"x", .integer number⟩], []⟩ = Evaluation.ofExcept (Primitive.multiply.apply
          [.integer Numeral.greatest, .integer number]) ⟨[⟨"x", .integer number⟩], []⟩ := rfl
    rw [evaluate, hrun, Arithmetic.multiply_greatest (by decide +kernel)]
    change Except.error (settle .standard (.reported (.overflow _))) = _
    rw [settle, (Arithmetic.fault_overflow_eq_iff _ _).mpr hlong]
  have hbegun : (evaluate .standard (.integer 1) env) = (.ok (.integer 1), env) := rfl
  have hprinted : (Datum.integer 1).print? .standard = .ok "1" := rfl
  have hanswer : (answer .standard first env).fault = some .numberTooLong ∧
      (answer .standard first env).output = "1\n" := by
    have hone := bind_of_evaluate_eq hbegun (·.print? .standard)
    have hstop : (evaluate .standard product env).1.bind (·.print? .standard) =
        .error .numberTooLong := by
      rw [hproduct]
      rfl
    rw [answer, runProgram, hfirst, run_cons_of_ok none _ (hone.trans hprinted), hbegun,
      run_cons_of_error none _ hstop]
    exact ⟨rfl, rfl⟩
  refine ⟨hshort, ?_, ?_⟩
  · rw [session_cons_of_fault hanswer.1]
    exact hanswer.1
  · rw [session_cons_of_fault hanswer.1]
    exact congrArg ("> " ++ ·) hanswer.2

end Repl

end SmallScheme
