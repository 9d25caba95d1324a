import SmallScheme.Proofs.Compiler.Functions
import SmallScheme.Proofs.Data.Magnitudes
import SmallScheme.Proofs.Interpreter.Runs
import SmallScheme.Proofs.Lexer.Numerals
import SmallScheme.Proofs.Reader.Integers

/-!
# What is compiled

A text is compiled just if it is read to its end as a row of integers. The compiler and the reader
scan a text in different modes, and they agree about texts of literals. So the assembly is that of
the integers which the interpreter yields for the text (`compile_iff_integers`).
-/

namespace SmallScheme

namespace Compiler

open Assembly

variable {compiler : Compiler}

/-- Having added some code lines, and nothing else. -/
structure Adds (lines : List String) (before after : Builder) : Prop where
  code : after.code.toList = before.code.toList ++ lines
  data : after.data = before.data
  excess : after.excess = before.excess

theorem Adds.trans {lines others : List String} {before middle after : Builder}
    (h : Adds lines before middle) (hothers : Adds others middle after) :
    Adds (lines ++ others) before after where
  code := by rw [hothers.code, h.code, List.append_assoc]
  data := hothers.data.trans h.data
  excess := hothers.excess.trans h.excess

theorem move_text {value : Int} (h : Numeral.isTooLong value = false) :
    (Move.immediateToRegister value .result).text =
      .ok ("movq $" ++ toString value ++ ", %rax") := by
  have hdecimal : Numeral.decimal value = .ok (toString value) :=
    Numeral.decimal_eq_ok_iff.mpr ⟨h, rfl⟩
  have hfront : "movq $" = "movq" ++ " " ++ "$" := by cbv
  have hback : ", %rax" = ", " ++ ("%" ++ "rax") := by cbv
  rw [hfront, hback]
  simp only [Move.text, immediate, hdecimal, bind, Except.bind, pure, Except.pure, instruction,
    Register.text, Register.result, Register.name, String.append_assoc]

/-- An integer that fits into a word adds the code lines of its function. -/
theorem adds_emitInteger {value : Int} (h : Numeral.Fits value) (compiler : Compiler) :
    ∃ after, compiler.emitInteger value = (.ok (), after) ∧
      after.functions = compiler.functions + 1 ∧
      Adds (functionLines compiler.functions value) compiler.builder after.builder := by
  rcases hopen : compiler.openFunction with ⟨name, opened⟩
  have hmove : opened.builder.move (.immediateToRegister value .result) =
      (.ok (), opened.builder.add ("movq $" ++ toString value ++ ", %rax")) := by
    rw [Builder.move, move_text (Numeral.isTooLong_of_fits h)]
  have hemit : compiler.emitInteger value = (.ok (),
      { opened.note (name ++ " returns " ++ toString value) with
        builder :=
          (opened.builder.add ("movq $" ++ toString value ++ ", %rax")).leaveFunction }) := by
    rw [emitInteger, hopen]
    dsimp only
    rw [hmove]
  cases hopen
  refine ⟨_, hemit, rfl, ?_, rfl, ?_⟩
  · simp [Builder.openFunction, Builder.add, Builder.leaveFunction, functionLines, functionName]
  · simp [Builder.openFunction, Builder.add, Builder.leaveFunction]

/-- The tokens of integers are compiled to their functions, numbered from where the compiler is. -/
theorem compileFrom_of_integers {lexemes : List Lexeme} {values : List Int}
    (h : lexemes.map Lexeme.token = integerTokens values)
    (hfits : ∀ lexeme ∈ lexemes, lexeme.Fits) (compiler : Compiler) :
    ∃ after, compileFrom lexemes compiler = (.ok (), after) ∧
      Adds (functionsLines compiler.functions values) compiler.builder after.builder := by
  induction values generalizing lexemes compiler with
  | nil =>
    obtain rfl := List.map_eq_nil_iff.mp h
    exact ⟨_, rfl, (List.append_nil _).symm, rfl, rfl⟩
  | cons value values ih =>
    obtain ⟨lexeme, rest, rfl, htoken, hrest⟩ := List.map_eq_cons_iff.mp h
    obtain ⟨hvalue, hfits⟩ := List.forall_mem_cons.mp hfits
    obtain ⟨made, hmade, hfunctions, hadds⟩ := adds_emitInteger (hvalue value htoken)
      { compiler with tokens := { compiler.tokens with pending := rest, position := lexeme.stop } }
    obtain ⟨after, hcompile, hmore⟩ := ih hrest hfits made
    rw [compileFrom, htoken]
    dsimp only
    rw [hmade]
    rw [hfunctions] at hmore
    exact ⟨after, hcompile, hadds.trans hmore⟩

/-- Only the tokens of integers are compiled to the end. -/
theorem exists_integers_of_compileFrom {lexemes : List Lexeme}
    (h : (compileFrom lexemes compiler).1 = .ok ()) :
    ∃ values, lexemes.map Lexeme.token = integerTokens values := by
  induction lexemes generalizing compiler with
  | nil => exact ⟨[], rfl⟩
  | cons lexeme rest ih =>
    rw [compileFrom] at h
    split at h
    · cases h
    · next value htoken =>
      split at h
      · obtain ⟨values, hvalues⟩ := ih h
        exact ⟨value :: values, by rw [List.map_cons, htoken, hvalues]; rfl⟩
      · cases h
    · cases h
    · cases h
    · cases h
    · cases h

/-- Code lines that leave no function open are written one below the other. -/
theorem build_of_adds {lines : List String} {builder : Builder} (h : Adds lines .empty builder) :
    builder.build = .ok (String.join (lines.map (Builder.formatLine · ++ "\n"))) := by
  obtain ⟨code, data, excess⟩ := builder
  obtain ⟨hcode, hdata, hexcess⟩ := h
  dsimp only at hcode hdata hexcess
  subst hdata hexcess
  rw [Builder.build, hcode]
  simp [Builder.validate, Builder.empty, bind, Except.bind, pure, Except.pure, Except.mapError]

/-- A text of integers is compiled to the functions of these. -/
theorem compile_of_integers {text : List Char} {values : List Int}
    (h : (lexemes .literals 0 text).map Lexeme.token = integerTokens values) :
    (compile text).1 = .ok (functionsText 0 values) := by
  obtain ⟨after, hcompile, hadds⟩ := compileFrom_of_integers h Lexeme.fits_of_mem
    (ofText .literals text .empty)
  have hstart : (ofText .literals text .empty).start = (.ok (), after) := hcompile
  rw [compile, hstart]
  exact (build_of_adds hadds).trans (congrArg Except.ok (join_functionsLines 0 values))

/-- Any text that is compiled is one of integers. -/
theorem exists_integers_of_compile {text : List Char} {assembly : String}
    (h : (compile text).1 = .ok assembly) :
    ∃ values, (lexemes .literals 0 text).map Lexeme.token = integerTokens values ∧
      assembly = functionsText 0 values := by
  have hstart : ((ofText .literals text .empty).start).1 = .ok () := by
    rcases hresult : (ofText .literals text .empty).start with ⟨fault | ⟨⟩, after⟩
    · rw [compile, hresult] at h
      cases h
    · rfl
  obtain ⟨values, hvalues⟩ := exists_integers_of_compileFrom hstart
  rw [compile_of_integers hvalues] at h
  exact ⟨values, hvalues, (Except.ok.inj h).symm⟩

end Compiler

variable {limits : Limits} {text : List Char} {values : List Int}

namespace Interpreter

theorem evaluate_integer (h : 0 < limits.evaluating) (value : Int) (env : Environment) :
    evaluate limits (.integer value) env = (.ok (.integer value), env) := by
  obtain ⟨levels, hlevels⟩ := Nat.exists_eq_succ_of_ne_zero (Nat.ne_of_gt h)
  rw [evaluate, hlevels]
  rfl

/-- Integers are what they evaluate to, and change nothing. -/
theorem run_integers (h : 0 < limits.evaluating) (last : Option Fault) (values : List Int)
    (env : Environment) :
    run limits .ok last (values.map .integer) env =
      ⟨values.map .integer, values.map .integer, last, env⟩ := by
  induction values with
  | nil => rfl
  | cons value values ih =>
    have hvalue : (evaluate limits (.integer value) env).1.bind .ok = .ok (.integer value) := by
      rw [evaluate_integer h]
      rfl
    rw [List.map_cons, run_cons_of_ok last _ hvalue, evaluate_integer h, ih]

theorem evaluateAll_of_readsIntegers (h : 0 < limits.evaluating)
    (hreads : ReadsIntegers limits text values) (env : Environment) :
    evaluateAll limits text env = ⟨values.map .integer, values.map .integer, none, env⟩ := by
  have hprogram : Program.ofText limits text = ⟨values.map .integer, none⟩ := by
    simp only [Program.ofText, hreads.1, hreads.2, Option.map_none]
  rw [evaluateAll, runProgram, hprogram]
  exact run_integers h none values env

end Interpreter

namespace Compiler

/-- A text is compiled just if it is read to its end as a row of integers, and no other expressions.
The assembly is the row of the functions that return these integers, numbered from zero on. The
interpreter yields the same integers for the text. Two texts have the same assembly just if their
integers are the same. -/
theorem compile_iff_integers (limits : Limits) (text : List Char) :
    ((∃ assembly, (compile text).1 = .ok assembly) ↔ ∃ values, ReadsIntegers limits text values) ∧
    (∀ values, ReadsIntegers limits text values →
      (compile text).1 = .ok (String.join ((values.zipIdx 0).map fun (value, index) =>
        functionText index value)) ∧
      (0 < limits.evaluating → ∀ env, Interpreter.evaluateAll limits text env =
        ⟨values.map .integer, values.map .integer, none, env⟩)) ∧
    (∀ text' assembly, (compile text).1 = .ok assembly →
      ((compile text').1 = .ok assembly ↔
        ∃ values, ReadsIntegers limits text values ∧ ReadsIntegers limits text' values)) := by
  refine ⟨⟨?_, ?_⟩, ?_, ?_⟩
  · rintro ⟨assembly, h⟩
    obtain ⟨values, hvalues, _⟩ := exists_integers_of_compile h
    exact ⟨values, readsIntegers_iff.mpr hvalues⟩
  · rintro ⟨values, hreads⟩
    exact ⟨_, compile_of_integers (readsIntegers_iff.mp hreads)⟩
  · intro values hreads
    exact ⟨compile_of_integers (readsIntegers_iff.mp hreads),
      fun hlimit env => Interpreter.evaluateAll_of_readsIntegers hlimit hreads env⟩
  · intro text' assembly h
    obtain ⟨values, hvalues, rfl⟩ := exists_integers_of_compile h
    constructor
    · intro h'
      obtain ⟨values', hvalues', htext⟩ := exists_integers_of_compile h'
      obtain rfl := functionsText_injective htext
      exact ⟨values, readsIntegers_iff.mpr hvalues, readsIntegers_iff.mpr hvalues'⟩
    · rintro ⟨values', hreads, hreads'⟩
      have htext := compile_of_integers (readsIntegers_iff.mp hreads)
      rw [h] at htext
      rw [compile_of_integers (readsIntegers_iff.mp hreads')]
      exact htext.symm

end Compiler

end SmallScheme
