import SmallScheme.Interpreter
import SmallScheme.Proofs.Data.Moderate
import SmallScheme.Proofs.Printer.Writing
import SmallScheme.Proofs.Reader.Reached
import SmallScheme.Proofs.Reader.Sequences

/-!
# Printing and reading again

Program text is read back as the datum it was printed from, for just those data whose integers and
symbols can be written. All that reading comes to are such data, so what has been read once can be
printed and read any number of times, and quoting the text makes it evaluate to the datum.
-/

namespace SmallScheme

open Grammar (Expression)

namespace TokenStream

/-- A text that is cut into the tokens of an expression is read as the datum, and to its end. -/
theorem read_of_writes {limits : Limits} {text : List Char} {tokens : List Token} {datum : Datum}
    (h : Writes text tokens []) (hexpression : Expression tokens datum)
    (hdepth : datum.depth ≤ limits.reading) :
    ∃ last : Cursor, last.lexemes = [] ∧
      (ofText .structural text).read limits = (.ok datum, ofCursor last text.length) := by
  have htakes := h 0
  rw [List.append_nil] at htakes
  exact ⟨_, lexemes_of_blank rfl, read_of_begins ⟨hexpression, htakes⟩ hdepth⟩

end TokenStream

namespace Interpreter

/-- A quotation evaluates to what it quotes, if anything can be evaluated. -/
theorem evaluate_quoted {limits : Limits} (datum : Datum) (env : Environment)
    (h : 0 < limits.evaluating) : evaluate limits datum.quoted env = (.ok datum, env) := by
  obtain ⟨levels, hlevels⟩ := Nat.exists_eq_succ_of_ne_zero (Nat.ne_of_gt h)
  rw [evaluate, hlevels]
  rfl

/-- A text that is read as a quotation, and to its end, is interpreted as what it quotes. -/
theorem interpret_quoted {limits : Limits} {text : List Char} {datum : Datum}
    {last : Cursor} (env : Environment) (hlimit : 0 < limits.evaluating)
    (hend : last.lexemes = [])
    (hread : (TokenStream.ofText .structural text).read limits =
      (.ok datum.quoted, .ofCursor last text.length)) :
    interpret limits text env = (.ok datum, env) := by
  have hprogram : Program.ofText limits text = ⟨[datum.quoted], none⟩ := by
    rw [Program.ofText, TokenStream.readAll_of_read hread, TokenStream.readAll_of_nil hend]
    rfl
  rw [interpret, evaluateAll, runProgram, hprogram]
  simp only [run, evaluate_quoted datum env hlimit]
  rfl

end Interpreter

namespace Datum

variable {limits : Limits} {datum : Datum}

/-- Printing takes more calls a level than reading. -/
theorem printing_le_reading (limits : Limits) : limits.printing ≤ limits.reading := by
  simp only [Limits.printing, Limits.reading]
  omega

/-- No number that a program can write is too long. -/
theorem Readable.isTooLong_eq_false (hreadable : datum.Readable) {number : Int}
    (h : Inside (.integer number) datum) : Numeral.isTooLong number = false :=
  Numeral.isTooLong_of_fits
    (fits_of_nonneg (hreadable.integers number h).1 (hreadable.integers number h).2)

/-- Only depth keeps a datum that can be written from being printed. -/
theorem Readable.printingObstacle?_eq_none_iff (hreadable : datum.Readable) {levels : Nat} :
    printingObstacle? levels datum = none ↔ datum.depth ≤ levels := by
  rw [Datum.printingObstacle?_eq_none_iff,
    and_iff_left fun number hnumber => hreadable.isTooLong_eq_false hnumber]

theorem print?_of_depth_le (hreadable : datum.Readable) (h : datum.depth ≤ limits.printing) :
    datum.print? limits = .ok datum.print :=
  print?_eq_ok_iff.mpr ⟨hreadable.printingObstacle?_eq_none_iff.mpr h, rfl⟩

/-- The program text of a datum that can be written is read as the datum. -/
theorem read_print (h : datum.Expressible) (hreadable : datum.Readable)
    (hdepth : datum.depth ≤ limits.reading) : Datum.read limits datum.print.toList = .ok datum := by
  obtain ⟨tokens, hwrites, hexpression⟩ := printsExpression h hreadable [] rfl
  obtain ⟨last, _, hread⟩ := TokenStream.read_of_writes hwrites hexpression hdepth
  rw [Datum.read, hread]

/-- Only data that can be written are read from a text. -/
theorem readable_of_read {text : List Char} (h : Datum.read limits text = .ok datum) :
    datum.Expressible ∧ datum.Readable := by
  have hread : (TokenStream.ofText .structural text).read limits =
      (.ok datum, ((TokenStream.ofText .structural text).read limits).2) := Prod.ext h rfl
  exact (TokenStream.Reached.start (Cursor.ofText .structural text) text.length).readable hread

/-- The program text of a datum that can be written, behind a quotation mark, is interpreted as the
datum in any environment. -/
theorem interpret_quoted_print (h : datum.Expressible) (hreadable : datum.Readable)
    (hdepth : datum.depth < limits.reading) (env : Environment) :
    Interpreter.interpret limits ('\'' :: datum.print.toList) env = (.ok datum, env) := by
  obtain ⟨tokens, hwrites, hexpression⟩ := printsExpression h hreadable [] rfl
  have hquoted : Writes ('\'' :: datum.print.toList) (.quoteMark :: tokens) [] :=
    (Spelled.quoteMark _).writes.append hwrites
  have hlimit : datum.quoted.depth ≤ limits.reading := by
    rw [depth_quoted]
    omega
  obtain ⟨last, hend, hread⟩ :=
    TokenStream.read_of_writes hquoted (.quotation hexpression) hlimit
  exact Interpreter.interpret_quoted env (Nat.zero_lt_of_lt hdepth) hend hread

/-- A datum built as expressions are is the one that its program text is read as, just if a program
can write its integers and symbols. All that is read from any text are such data, and their program
text behind a quotation mark is interpreted as the datum. -/
theorem read_print_iff_readable (limits : Limits) :
    (∀ datum : Datum, datum.Expressible → datum.depth ≤ limits.printing →
      ((∃ text, datum.print? limits = .ok text ∧ Datum.read limits text.toList = .ok datum) ↔
        datum.Readable)) ∧
    (∀ stream after datum, TokenStream.Reached limits stream →
      stream.read limits = (.ok datum, after) → datum.depth ≤ limits.printing →
        ∃ text, datum.print? limits = .ok text ∧ Datum.read limits text.toList = .ok datum ∧
          (datum.depth < limits.reading → ∀ env,
            Interpreter.interpret limits ('\'' :: text.toList) env = (.ok datum, env))) := by
  constructor
  · intro datum h hdepth
    constructor
    · rintro ⟨text, _, hread⟩
      exact (readable_of_read hread).2
    · intro hreadable
      exact ⟨_, print?_of_depth_le hreadable hdepth,
        read_print h hreadable (Nat.le_trans hdepth (printing_le_reading limits))⟩
  · intro stream after datum hreached hread hdepth
    obtain ⟨h, hreadable⟩ := hreached.readable hread
    refine ⟨_, print?_of_depth_le hreadable hdepth,
      read_print h hreadable (Nat.le_trans hdepth (printing_le_reading limits)), ?_⟩
    exact fun hlimit env => interpret_quoted_print h hreadable hlimit env

/-- A quoted name may contain a parenthesis and a quotation mark, but no space. -/
theorem read_print_names :
    (∃ text, (Datum.symbol "a('b").quoted.print? Limits.standard = .ok text ∧
      Datum.read Limits.standard text.toList = .ok (Datum.symbol "a('b").quoted) ∧
    ¬ ∃ text, (Datum.symbol "a b").print? Limits.standard = .ok text ∧
      Datum.read Limits.standard text.toList = .ok (.symbol "a b") := by
  have hname : IsAtomName "a('b" := isAtomName_of_all ⟨'a', rfl, by decide⟩ rfl
  constructor
  · have hiff := (read_print_iff_readable Limits.standard).1 _
      (Expressible.symbol "a('b").quoted (by decide)
    exact hiff.mpr (readable_symbol hname).quoted
  · intro h
    have hiff := (read_print_iff_readable Limits.standard).1 _ (.symbol "a b") (by decide)
    have hbroken := ((hiff.mp h).names "a b" .self).unbroken ' ' (by decide)
    exact absurd hbroken.1 (by decide)

end Datum

end SmallScheme
