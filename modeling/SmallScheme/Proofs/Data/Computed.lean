import SmallScheme.Proofs.Data.Readable

/-!
# Data that programs compute

A program is written in expressions, and what it computes from them is of a few kinds only: the
integers fit into a word, lists hold values of the same kinds, and a procedure keeps the expressions
of its body as they were written. Foreign values are none of these.
-/

namespace SmallScheme.Datum

/-- Being an expression as a program writes it. -/
structure Written (datum : Datum) : Prop where
  expressible : datum.Expressible
  readable : datum.Readable

/-- Being a value of a kind that programs compute. -/
inductive Computed : Datum → Prop
  | boolean (value : Bool) : Computed (.boolean value)
  | integer {value : Int} : Numeral.Fits value → Computed (.integer value)
  | symbol {name : Name} : IsAtomName name → Computed (.symbol name)
  | list {items : List Datum} : (∀ item ∈ items, Computed item) → Computed (.list items)
  | procedure {name : Name} {parameters : List Name} {body : List Datum} : IsAtomName name →
      (∀ parameter ∈ parameters, IsAtomName parameter) →
      (∀ expression ∈ body, expression.Written) →
      Computed (.procedure (some name) parameters body)

theorem written_list_iff {items : List Datum} :
    (Datum.list items).Written ↔ ∀ item ∈ items, item.Written := by
  constructor
  · rintro ⟨hexpressible, hreadable⟩ item hitem
    cases hexpressible with
    | list hitems => exact ⟨hitems item hitem, readable_list_iff.mp hreadable item hitem⟩
  · intro h
    exact ⟨.list fun item hitem => (h item hitem).expressible,
      readable_list_iff.mpr fun item hitem => (h item hitem).readable⟩

theorem written_symbol_iff {name : Name} : (Datum.symbol name).Written ↔ IsAtomName name := by
  constructor
  · intro h
    exact h.readable.names name .self
  · intro h
    exact ⟨.symbol name, readable_symbol h⟩

theorem computed_list_iff {items : List Datum} :
    (Datum.list items).Computed ↔ ∀ item ∈ items, item.Computed := by
  constructor
  · rintro ⟨⟩
    assumption
  · exact .list

/-- A numeral fits into a word, since it has no sign. -/
theorem fits_of_nonneg {value : Int} (hpos : 0 ≤ value) (hgreatest : value ≤ Numeral.greatest) :
    Numeral.Fits value := by
  refine ⟨?_, hgreatest⟩
  simp only [Numeral.least]
  omega

/-- What is written is a value when it is quoted. -/
theorem Written.computed {datum : Datum} (h : datum.Written) : datum.Computed := by
  obtain ⟨hexpressible, hreadable⟩ := h
  induction hexpressible with
  | boolean value => exact .boolean value
  | integer value =>
    obtain ⟨hpos, hgreatest⟩ := hreadable.integers value .self
    exact .integer (fits_of_nonneg hpos hgreatest)
  | symbol name => exact .symbol (hreadable.names name .self)
  | list _ ih =>
    have hitems := readable_list_iff.mp hreadable
    exact .list fun item hitem => ih item hitem (hitems item hitem)

/-- No foreign value is computed. -/
theorem Computed.ne_foreign {datum : Datum} (h : datum.Computed) (value : Foreign) :
    datum ≠ .foreign value := by
  rintro rfl
  cases h

/-- No foreign value stands in a computed one. -/
theorem Computed.not_inside_foreign {datum : Datum} (h : datum.Computed) (value : Foreign) :
    ¬ Inside (.foreign value) datum := by
  induction h with
  | list _ ih =>
    intro hinside
    cases hinside with
    | member hitem hinner => exact ih _ hitem hinner
  | boolean | integer | symbol | procedure => rintro ⟨⟩

/-- A value without procedures is built as expressions are. -/
theorem Computed.expressible {datum : Datum} (h : datum.Computed)
    (hprocedure : datum.ProcedureFree) : datum.Expressible := by
  induction h with
  | boolean value => exact .boolean value
  | integer _ => exact .integer _
  | symbol _ => exact .symbol _
  | list _ ih =>
    exact .list fun item hitem => ih item hitem (procedureFree_list_iff.mp hprocedure item hitem)
  | procedure => exact absurd .self (hprocedure _ _ _)

/-- A value can be written as far as its integers have no sign. -/
theorem Computed.readable_iff {datum : Datum} (h : datum.Computed) :
    datum.Readable ↔ ∀ value, Inside (.integer value) datum → 0 ≤ value := by
  refine ⟨fun hreadable value hvalue => (hreadable.integers value hvalue).1, fun hpos => ?_⟩
  induction h with
  | boolean value => exact readable_boolean value
  | integer hfits => exact readable_integer (hpos _ .self) hfits.2
  | symbol hname => exact readable_symbol hname
  | list _ ih =>
    refine readable_list_iff.mpr fun item hitem => ih item hitem fun value hvalue => ?_
    exact hpos value (.member hitem hvalue)
  | procedure =>
    constructor
    · rintro _ ⟨⟩
    · rintro _ ⟨⟩

end SmallScheme.Datum
