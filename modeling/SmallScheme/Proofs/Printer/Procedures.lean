import SmallScheme.Proofs.Interpreter.Procedures
import SmallScheme.Proofs.Printer.RoundTrip

/-!
# Procedures written and read again

A procedure is written as a `lambda` list that is put together by hand: the names of the parameters
as they are, and each expression of the body with a space in front of it. Around them nothing runs
together, also where there are no parameters or no body, so the text is cut into the tokens of the
list (`Datum.writes_lambdaText`). What a program makes can be written. So for every procedure that
it makes the list is read back, and defines the procedure again (`Interpreter.Makes.read_written`).
-/

namespace SmallScheme

open Grammar (Expression Row)
open Scan (endsHere)

theorem isAtomName_lambda : IsAtomName "lambda" :=
  isAtomName_of_all ⟨'l', rfl, by decide⟩ rfl

namespace Datum

/-- The list that a procedure is written as. -/
def lambda (parameters : List Name) (body : List Datum) : Datum :=
  .list (.symbol "lambda" :: .list (parameters.map .symbol) :: body)

/-- The definition of a name by a `lambda` list. -/
def asDefinition (name : Name) : Datum → Datum
  | .list (_ :: .list parameters :: body) =>
    .list (.symbol "define" :: .list (.symbol name :: parameters) :: body)
  | datum => datum

variable {parameters : List Name} {body : List Datum} {rest : List Char}

/-- The text of a body. -/
def bodyText (body : List Datum) : String :=
  String.join (body.map fun expression => " " ++ expression.print)

theorem bodyText_cons (expression : Datum) (body : List Datum) :
    (bodyText (expression :: body)).toList =
      ' ' :: (expression.print.toList ++ (bodyText body).toList) := by
  rw [bodyText, List.map_cons, String.join_cons, String.toList_append, String.toList_append]
  rfl

/-- A name in front of a body ends there. -/
theorem endsHere_bodyText (body : List Datum) (h : endsHere rest) :
    endsHere ((bodyText body).toList ++ rest) := by
  cases body with
  | nil => exact h
  | cons expression body =>
    rw [bodyText_cons]
    rfl

/-- Data that are printed as expressions are a row of them in the text of a body. -/
theorem exists_row_bodyText (h : ∀ expression ∈ body, PrintsExpression expression)
    (hends : endsHere rest) :
    ∃ tokens, Writes (bodyText body).toList tokens rest ∧ Row tokens body := by
  induction body with
  | nil => exact ⟨[], Writes.nil rest, .nil⟩
  | cons expression body ih =>
    obtain ⟨hfirst, hbody⟩ := List.forall_mem_cons.mp h
    obtain ⟨others, hothers, hrow⟩ := ih hbody
    obtain ⟨tokens, hwrites, hexpression⟩ := hfirst _ (endsHere_bodyText body hends)
    have hrow : Row (tokens ++ others) (expression :: body) := .cons hexpression hrow
    refine ⟨tokens ++ others, ?_, hrow⟩
    rw [bodyText_cons]
    exact (hwrites.append hothers).space hrow.ne_nil

/-- Names are written as the symbols of these names are printed. -/
theorem intercalate_eq_printAll (names : List Name) :
    " ".intercalate names = printAll (names.map .symbol) := by
  induction names with
  | nil => exact String.intercalate_nil
  | cons name names ih =>
    cases names with
    | nil =>
      rw [String.intercalate_singleton]
      rfl
    | cons next names =>
      rw [String.intercalate_cons_cons, ih]
      rfl

/-- A procedure is written as the tokens of a `lambda` list, if its parameters and the expressions
of its body can be written. -/
theorem writes_lambdaText (hparameters : ∀ parameter ∈ parameters, IsAtomName parameter)
    (hbody : ∀ expression ∈ body, expression.Written) (rest : List Char) :
    ∃ tokens, Writes (lambdaText parameters body).toList tokens rest ∧
      Expression tokens (lambda parameters body) := by
  have hprints : ∀ expression ∈ body, PrintsExpression expression := fun expression hmem =>
    printsExpression (hbody expression hmem).expressible (hbody expression hmem).readable
  have hnames : ∀ item ∈ parameters.map Datum.symbol, PrintsExpression item := by
    intro item hitem
    obtain ⟨parameter, hmem, rfl⟩ := List.mem_map.mp hitem
    exact printsExpression (.symbol parameter) (readable_symbol (hparameters parameter hmem))
  -- The parts are put together from the right, since each is cut in front of those behind it.
  have hends : endsHere ([')'] ++ rest) := rfl
  obtain ⟨bodyTokens, hbodyWrites, hbodyRow⟩ := exists_row_bodyText hprints hends
  have hbehind := hbodyWrites.append (Spelled.closeParen rest).writes
  have hnamesEnd : endsHere ([')'] ++ ((bodyText body).toList ++ [')']) ++ rest) := rfl
  obtain ⟨nameTokens, hnamesWrites, hnamesRow⟩ := exists_row_printAll hnames hnamesEnd
  have hlist := (Spelled.openParen _).writes.append
    (hnamesWrites.append ((Spelled.closeParen _).writes.append hbehind))
  have hword := (Spelled.atom isAtomName_lambda rfl).writes.append
    (hlist.space (List.cons_ne_nil _ _))
  refine ⟨_, ?_, .list (.cons (.atom "lambda") (.cons (.list hnamesRow) hbodyRow))⟩
  rw [lambdaText, intercalate_eq_printAll]
  simpa [bodyText] using (Spelled.openParen _).writes.append hword

/-- The text of a procedure that can be written is read as a `lambda` list. -/
theorem read_lambdaText {limits : Limits}
    (hparameters : ∀ parameter ∈ parameters, IsAtomName parameter)
    (hbody : ∀ expression ∈ body, expression.Written)
    (hdepth : (lambda parameters body).depth ≤ limits.reading) :
    Datum.read limits (lambdaText parameters body).toList = .ok (lambda parameters body) := by
  obtain ⟨tokens, hwrites, hexpression⟩ := writes_lambdaText hparameters hbody []
  obtain ⟨last, _, hread⟩ := TokenStream.read_of_writes hwrites hexpression hdepth
  rw [Datum.read, hread]

/-- A procedure whose body can be written is written just if the expressions of the body are not
nested too deeply to be printed. -/
theorem plain?_procedure_eq_ok {limits : Limits} {name : Option Name} {written : String}
    (hbody : ∀ expression ∈ body, expression.Written) :
    (Datum.procedure name parameters body).plain? limits = .ok written ↔
      (∀ expression ∈ body, expression.depth ≤ limits.printing) ∧
        written = lambdaText parameters body := by
  have hprinted : printingObstacleAmong? limits.printing body = none ↔
      ∀ expression ∈ body, expression.depth ≤ limits.printing := by
    rw [printingObstacleAmong?_eq, List.findSome?_eq_none_iff]
    exact forall₂_congr fun expression hmem =>
      (hbody expression hmem).readable.printingObstacle?_eq_none_iff
  rw [plain?, textUnless_eq_ok_iff, obstacle?, hprinted]
  rfl

/-- The lists of a definition are nested as deeply as those of the `lambda` list in its place. -/
theorem depth_definition (name : Name) (parameters : List Name) (body : List Datum) :
    (definition name parameters body).depth = (lambda parameters body).depth := by
  simp only [definition, lambda, depth, depthOfAll, Nat.zero_max]

end Datum

namespace Interpreter

open Datum (lambda)
open Evaluation

/-- Every procedure that a text makes in a new environment has a name. It is written as text unless
an expression of its body is nested too deeply to be printed. What is written is read back as the
list of the symbol `lambda`, the parameters and the body, and the definition of its name by this
list, in any environment, makes and binds the same procedure. -/
theorem Makes.read_written {limits : Limits} {text : List Char} {procedure : Datum}
    (h : Makes limits text procedure) :
    ∃ (name : Name) (parameters : List Name) (body : List Datum),
      procedure = .procedure (some name) parameters body ∧
        ((∃ written, procedure.plain? limits = .ok written) ↔
          ∀ expression ∈ body, expression.depth ≤ limits.printing) ∧
        (∀ written, procedure.plain? limits = .ok written →
          Datum.read limits written.toList = .ok (lambda parameters body)) ∧
        ∀ env, evaluate limits ((lambda parameters body).asDefinition name) env =
          (.ok procedure, env.bind name procedure) := by
  obtain ⟨name, parameters, body, rfl, hdefinition⟩ := h.exists_definition
  have hdepth : (lambda parameters body).depth ≤ limits.reading :=
    Datum.depth_definition name parameters body ▸ hdefinition.depth_le
  obtain ⟨hparameters, hbody⟩ : (∀ parameter ∈ parameters, IsAtomName parameter) ∧
      ∀ expression ∈ body, expression.Written := by
    cases computed_of_definition hdefinition.written
      (parameterNames_map_symbol name parameters) with
    | procedure _ hparameters hbody => exact ⟨hparameters, hbody⟩
  refine ⟨name, parameters, body, rfl, ?_, fun written hwritten => ?_, fun env => ?_⟩
  · simp only [Datum.plain?_procedure_eq_ok hbody, exists_and_left, exists_eq, and_true]
  · obtain ⟨_, rfl⟩ := (Datum.plain?_procedure_eq_ok hbody).mp hwritten
    exact Datum.read_lambdaText hparameters hbody hdepth
  · -- What can be read at all can be evaluated: the limits allow as many levels for both.
    have hlimit : 0 < limits.evaluating := Nat.lt_of_lt_of_le (Nat.succ_pos _) hdepth
    obtain ⟨levels, hlevels⟩ := Nat.exists_eq_succ_of_ne_zero (Nat.ne_of_gt hlimit)
    change evaluate limits (.definition name parameters body) env = _
    rw [evaluate, hlevels, within_definition]
    rfl

/-- A procedure that the body of another one defines, in the frame of a call. -/
theorem Makes.read_written_inner :
    let text : List Char := ['(', 'd', 'e', 'f', 'i', 'n', 'e', ' ', '(', 'f', ')', ' ',
      '(', 'd', 'e', 'f', 'i', 'n', 'e', ' ', '(', 'g', ' ', 'x', ')', ' ', '\'', 'x', ')', ')',
      '(', 'f', ')']
    let body : List Datum := [(Datum.symbol "x").quoted]
    let procedure : Datum := .procedure (some "g") ["x"] body
    Makes .standard text procedure ∧ procedure.plain? .standard = .ok "(lambda (x) 'x)" ∧
      Datum.read .standard "(lambda (x) 'x)".toList = .ok (lambda ["x"] body) ∧
      evaluate .standard ((lambda ["x"] body).asDefinition "g") .empty =
        (.ok procedure, Environment.empty.bind "g" procedure) := by
  intro text body procedure
  have hprogram : Program.ofText .standard text = ⟨[.definition "f" [] [.definition "g" ["x"] body],
      .list [.symbol "f"]], none⟩ := by with_unfolding_all rfl
  have hmakes : Makes .standard text procedure := by
    let env := Environment.empty.bind "f" (.procedure (some "f") [] [.definition "g" ["x"] body])
    refine ⟨⟨499, .definition "g" ["x"] body, env.push⟩, ?_, _, _, rfl, rfl⟩
    -- Two expressions are begun, and the inner definition as the third evaluation.
    rw [hprogram]
    exact List.mem_of_getElem? (show _[2]? = _ from rfl)
  obtain ⟨name, parameters, others, hprocedure, _, hread, hevaluate⟩ := hmakes.read_written
  obtain ⟨hname, rfl, rfl⟩ := Datum.procedure.inj hprocedure
  obtain rfl := Option.some.inj hname
  exact ⟨hmakes, rfl, hread _ rfl, hevaluate _⟩

end Interpreter

end SmallScheme
