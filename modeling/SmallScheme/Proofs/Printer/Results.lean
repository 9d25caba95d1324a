import SmallScheme.Proofs.Interpreter.Values
import SmallScheme.Proofs.Printer.RoundTrip

/-!
# Printing what was computed

Arithmetic yields integers below zero, but no numeral has a sign: such an integer is printed as the
name of a symbol and read back as that symbol. Every other value without procedures is read back
from its program text, whatever program has computed it.
-/

namespace SmallScheme.Datum

variable {limits : Limits} {value other : Datum} {printed : String}

theorem depth_le_of_print? (h : value.print? limits = .ok printed) :
    value.depth ≤ limits.printing ∧ printed = value.print := by
  obtain ⟨hobstacle, hprinted⟩ := print?_eq_ok_iff.mp h
  exact ⟨(printingObstacle?_eq_none_iff.mp hobstacle).1, hprinted⟩

/-- A computed value without procedures is read back just if its integers are not negative. -/
theorem read_print?_iff (hvalue : value.Computed)
    (hprocedure : ∀ name parameters body, ¬ Inside (.procedure name parameters body) value)
    (hprinted : value.print? limits = .ok printed) :
    Datum.read limits printed.toList = .ok value ↔
      ∀ number, Inside (.integer number) value → 0 ≤ number := by
  obtain ⟨hdepth, rfl⟩ := depth_le_of_print? hprinted
  rw [← hvalue.readable_iff]
  constructor
  · intro hread
    exact (readable_of_read hread).2
  · intro hreadable
    exact read_print (hvalue.expressible hprocedure) hreadable
      (Nat.le_trans hdepth (printing_le_reading limits))

/-- A value without procedures that a text yields in a new environment is read back from its program
text just if no negative integer stands in it. No two of the values that are read back are printed
alike. -/
theorem read_print_value_iff {text : List Char}
    (hvalue : (Interpreter.interpret limits text .empty).1 = .ok value)
    (hprocedure : ∀ name parameters body, ¬ Inside (.procedure name parameters body) value)
    (hprinted : value.print? limits = .ok printed) :
    (Datum.read limits printed.toList = .ok value ↔
      ∀ number, Inside (.integer number) value → 0 ≤ number) ∧
    ∀ text' other, (Interpreter.interpret limits text' .empty).1 = .ok other →
      (∀ name parameters body, ¬ Inside (.procedure name parameters body) other) →
      other.print? limits = .ok printed →
      (∀ number, Inside (.integer number) value → 0 ≤ number) →
      (∀ number, Inside (.integer number) other → 0 ≤ number) → value = other := by
  have hcomputed := Interpreter.computed_of_interpret Environment.computed_empty hvalue
  have hiff := read_print?_iff hcomputed hprocedure hprinted
  refine ⟨hiff, fun text' other hother hprocedure' hprinted' hpos hpos' => ?_⟩
  have hcomputed' := Interpreter.computed_of_interpret Environment.computed_empty hother
  have hread := hiff.mpr hpos
  rw [(read_print?_iff hcomputed' hprocedure' hprinted').mpr hpos'] at hread
  exact (Except.ok.inj hread).symm

/-- A list with an integer that was computed and a name is read back. -/
theorem read_print_value_list :
    (Interpreter.interpret .standard ['(', 'c', 'o', 'n', 's', ' ', '(', '-', ' ', '7', ' ', '5',
        ')', ' ', '\'', '(', 'a', ')', ')'] .empty).1 = .ok (.list [.integer 2, .symbol "a"]) ∧
      (Datum.list [.integer 2, .symbol "a"]).print? .standard = .ok "(2 a)" ∧
      Datum.read .standard "(2 a)".toList = .ok (.list [.integer 2, .symbol "a"]) := by
  have hprogram : Program.ofText .standard ['(', 'c', 'o', 'n', 's', ' ', '(', '-', ' ', '7', ' ',
      '5', ')', ' ', '\'', '(', 'a', ')', ')'] = ⟨[.list [.symbol "cons",
      .list [.symbol "-", .integer 7, .integer 5], (Datum.list [.symbol "a"]).quoted]], none⟩ := by
    with_unfolding_all rfl
  have hvalue : (Interpreter.interpret .standard ['(', 'c', 'o', 'n', 's', ' ', '(', '-', ' ', '7',
      ' ', '5', ')', ' ', '\'', '(', 'a', ')', ')'] .empty).1 =
      .ok (.list [.integer 2, .symbol "a"]) := by
    rw [Interpreter.interpret, Interpreter.evaluateAll, hprogram]
    rfl
  have hprinted : (Datum.list [.integer 2, .symbol "a"]).print? .standard = .ok "(2 a)" := by rfl
  have hparts : ∀ part, Inside part (.list [.integer 2, .symbol "a"]) →
      part = .list [.integer 2, .symbol "a"] ∨ part = .integer 2 ∨ part = .symbol "a" := by
    rintro part (_ | ⟨hmem, hpart⟩)
    · exact .inl rfl
    · rcases List.mem_pair.mp hmem with rfl | rfl
      · cases hpart
        exact .inr (.inl rfl)
      · cases hpart
        exact .inr (.inr rfl)
  refine ⟨hvalue, hprinted, (read_print_value_iff hvalue ?_ hprinted).1.mpr ?_⟩
  · rintro name parameters body hinside
    rcases hparts _ hinside with h | h | h <;> cases h
  · intro number hinside
    rcases hparts _ hinside with h | h | h
    · cases h
    · cases h
      decide
    · cases h

/-- Five subtracted from nothing is printed as a name, and read back as the symbol of that name,
which a quotation yields too. -/
theorem read_print_negative :
    (Interpreter.interpret .standard ['(', '-', ' ', '0', ' ', '5', ')'] .empty).1 =
        .ok (.integer (-5)) ∧
      (Datum.integer (-5)).print? .standard = .ok "-5" ∧
      Datum.read .standard ['-', '5'] = .ok (.symbol "-5") ∧
      (Interpreter.interpret .standard ['\'', '-', '5'] .empty).1 = .ok (.symbol "-5") ∧
      (Datum.symbol "-5").print? .standard = .ok "-5" := by
  have hdifference : Program.ofText .standard ['(', '-', ' ', '0', ' ', '5', ')'] =
      ⟨[.list [.symbol "-", .integer 0, .integer 5]], none⟩ := by with_unfolding_all rfl
  have hquotation : Program.ofText .standard ['\'', '-', '5'] =
      ⟨[(Datum.symbol "-5").quoted], none⟩ := by with_unfolding_all rfl
  refine ⟨?_, rfl, by with_unfolding_all rfl, ?_, rfl⟩
  · rw [Interpreter.interpret, Interpreter.evaluateAll, hdifference]
    rfl
  · rw [Interpreter.interpret, Interpreter.evaluateAll, hquotation]
    rfl

end SmallScheme.Datum
