import SmallScheme.Evaluation
import SmallScheme.Proofs.Data.Moderate
import SmallScheme.Proofs.Evaluation.Errors

/-!
# What primitives and definitions are made of

The results of primitives are new integers and booleans, or lists and members of lists that were
among the operands. An integer that is not an operand fits into a word. An overflow comes from one
step of arithmetic, and all other errors of primitives show nothing but operands.
-/

namespace SmallScheme

namespace Primitive

theorem integer?_eq_some {operand : Datum} {value : Int} (h : integer? operand = some value) :
    operand = .integer value := by
  unfold integer? at h
  split at h <;> cases h
  rfl

/-- A step of arithmetic yields a number that fits. -/
theorem fits_of_step {operator : Name} {operation : Int → Int → Int} {accumulated result : Int}
    {operand : Datum} (h : step operator operation accumulated operand = .ok result) :
    Numeral.Fits result := by
  unfold step at h
  split at h
  · unfold checked at h
    split at h
    · next hfits => exact Except.ok.inj h ▸ hfits
    · cases h
  · cases h

/-- A step of arithmetic fails on an operand that is no integer, or on its exact result. -/
theorem step_eq_error {operator : Name} {operation : Int → Int → Int} {accumulated : Int}
    {operand : Datum} {error : Error}
    (h : step operator operation accumulated operand = .error error) :
    error = .operand operator operand ∨
      ∃ value, operand = .integer value ∧ error = .overflow (operation accumulated value) := by
  unfold step at h
  split at h
  · next value hvalue =>
    unfold checked at h
    split at h
    · cases h
    · exact Or.inr ⟨value, integer?_eq_some hvalue, (Except.error.inj h).symm⟩
  · exact Or.inl (Except.error.inj h).symm

/-- Arithmetic over some operands yields a number that fits, or what it started from. -/
theorem fold_eq_ok {operator : Name} {operation : Int → Int → Int} {start result : Int}
    {operands : List Datum} (h : fold operator operation start operands = .ok result) :
    Numeral.Fits result ∨ result = start := by
  induction operands generalizing start with
  | nil => exact Or.inr (Except.ok.inj h).symm
  | cons operand operands ih =>
    simp only [fold, List.foldlM_cons, Bind.bind, Except.bind] at h
    split at h
    · cases h
    · next next hstep =>
      rcases ih h with hfits | rfl
      · exact Or.inl hfits
      · exact Or.inl (fits_of_step hstep)

/-- Arithmetic over some operands fails on one that is no integer, or on the result of a step. What
such a step goes on from fits, or is what arithmetic started from. -/
theorem fold_eq_error {operator : Name} {operation : Int → Int → Int} {start : Int}
    {operands : List Datum} {error : Error}
    (h : fold operator operation start operands = .error error) :
    (∃ operand ∈ operands, error = .operand operator operand) ∨
      ∃ accumulated value, (Numeral.Fits accumulated ∨ accumulated = start) ∧
        .integer value ∈ operands ∧ error = .overflow (operation accumulated value) := by
  induction operands generalizing start with
  | nil => cases h
  | cons operand operands ih =>
    simp only [fold, List.foldlM_cons, Bind.bind, Except.bind] at h
    split at h
    · next other hstep =>
      cases h
      rcases step_eq_error hstep with rfl | ⟨value, rfl, rfl⟩
      · exact Or.inl ⟨operand, List.mem_cons_self, rfl⟩
      · exact Or.inr ⟨start, value, Or.inr rfl, List.mem_cons_self, rfl⟩
    · next next hstep =>
      rcases ih h with ⟨found, hmem, rfl⟩ | ⟨accumulated, value, hfits, hmem, rfl⟩
      · exact Or.inl ⟨found, List.mem_cons_of_mem _ hmem, rfl⟩
      · refine Or.inr ⟨accumulated, value, Or.inl ?_, List.mem_cons_of_mem _ hmem, rfl⟩
        rcases hfits with hfits | rfl
        · exact hfits
        · exact fits_of_step hstep

/-- Where an overflow comes from: one step of arithmetic. It goes on from a word, and a difference
possibly from an operand. -/
inductive Overflows (operands : List Datum) : Int → Prop
  | sum {a b : Int} : Numeral.Fits a → .integer b ∈ operands → Overflows operands (a + b)
  | product {a b : Int} : Numeral.Fits a → .integer b ∈ operands → Overflows operands (a * b)
  | difference {a b : Int} : Numeral.Fits a ∨ .integer a ∈ operands → .integer b ∈ operands →
      Overflows operands (a - b)

/-- An overflow on moderate numbers can be worded. -/
theorem Overflows.isTooLong_eq_false {operands : List Datum} {result : Int}
    (h : Overflows operands result)
    (hoperands : ∀ value, .integer value ∈ operands → Numeral.Moderate value) :
    Numeral.isTooLong result = false := by
  cases h with
  | sum ha hb =>
    exact (Numeral.isTooLong_of_moderate (Numeral.moderate_of_fits ha) (hoperands _ hb)).1
  | product ha hb =>
    exact (Numeral.isTooLong_of_moderate (Numeral.moderate_of_fits ha) (hoperands _ hb)).2.1 ha
  | difference ha hb =>
    have hfirst := ha.elim Numeral.moderate_of_fits (hoperands _)
    exact (Numeral.isTooLong_of_moderate hfirst (hoperands _ hb)).2.2

/-- How primitives fail: by an overflow, or by an error about the operands. -/
inductive Fails (operands : List Datum) (error : Error) : Prop
  | overflow {result : Int} : error = .overflow result → Overflows operands result →
      Fails operands error
  | refused : error.About (· ∈ operands) → Fails operands error

section Fails

variable {operator : Name} {operands others : List Datum} {error : Error}

theorem fails_of_fold {operation : Int → Int → Int} {start : Int}
    (hoperands : ∀ operand ∈ operands, operand ∈ others)
    (hoverflows : ∀ a b, (Numeral.Fits a ∨ a = start) → .integer b ∈ others →
      Overflows others (operation a b))
    (h : fold operator operation start operands = .error error) : Fails others error := by
  rcases fold_eq_error h with ⟨operand, hmem, rfl⟩ | ⟨accumulated, value, hfits, hmem, rfl⟩
  · exact .refused (.of_value trivial rfl (hoperands operand hmem))
  · exact .overflow rfl (hoverflows accumulated value hfits (hoperands _ hmem))

theorem fails_of_difference (h : difference operands = .error error) : Fails operands error := by
  unfold difference at h
  split at h
  · cases h
    exact .refused (.of_described trivial rfl)
  · next first rest =>
    split at h
    · next value hvalue =>
      obtain rfl := integer?_eq_some hvalue
      refine fails_of_fold (fun operand => List.mem_cons_of_mem _) (fun a b ha hb => ?_) h
      refine .difference (ha.imp_right ?_) hb
      rintro rfl
      exact List.mem_cons_self
    · cases h
      exact .refused (.of_value trivial rfl List.mem_cons_self)

theorem fails_of_uncons (h : uncons operator operands = .error error) : Fails operands error := by
  unfold uncons at h
  split at h
  · cases h
  · cases h
    exact .refused (.of_described trivial rfl)
  · cases h
    exact .refused (.of_value trivial rfl List.mem_cons_self)
  · cases h
    exact .refused (.of_described trivial rfl)

theorem fails_of_prepend (h : prepend operands = .error error) : Fails operands error := by
  unfold prepend at h
  split at h
  · cases h
  · next head other _ =>
    cases h
    exact .refused (.of_value trivial rfl (List.mem_cons_of_mem head List.mem_cons_self))
  · cases h
    exact .refused (.of_described trivial rfl)

theorem fails_of_mapM_comparable (hoperands : ∀ operand ∈ operands, operand ∈ others)
    (h : operands.mapM comparable = .error error) : Fails others error := by
  induction operands with
  | nil => cases h
  | cons operand operands ih =>
    obtain ⟨hmem, hrest⟩ := List.forall_mem_cons.mp hoperands
    simp only [List.mapM_cons, Bind.bind, Except.bind] at h
    split at h
    · next other hother =>
      cases h
      unfold comparable at hother
      split at hother
      · cases hother
      · cases hother
        exact .refused (.of_value trivial rfl hmem)
    · split at h
      · next other hfailed =>
        cases h
        exact ih hrest hfailed
      · cases h

private theorem eq_error_of_map {α β : Type} {result : Except Error α} {f : α → β}
    (h : result.map f = .error error) : result = .error error := by
  cases result with
  | error => exact congrArg Except.error (Except.error.inj h)
  | ok => cases h

/-- Primitives fail in one of a few ways. -/
theorem fails_of_apply {primitive : Primitive} (h : primitive.apply operands = .error error) :
    Fails operands error := by
  have hword {a start : Int} (hstart : Numeral.Fits start) (ha : Numeral.Fits a ∨ a = start) :
      Numeral.Fits a := ha.elim id fun heq => heq ▸ hstart
  cases primitive with
  | add =>
    exact fails_of_fold (fun _ => id) (fun a b ha hb => .sum (hword (by decide) ha) hb)
      (eq_error_of_map h)
  | multiply =>
    exact fails_of_fold (fun _ => id) (fun a b ha hb => .product (hword (by decide) ha) hb)
      (eq_error_of_map h)
  | subtract => exact fails_of_difference (eq_error_of_map h)
  | car => exact fails_of_uncons (eq_error_of_map h)
  | cdr => exact fails_of_uncons (eq_error_of_map h)
  | cons => exact fails_of_prepend h
  | equal => exact fails_of_mapM_comparable (fun _ => id) (eq_error_of_map h)

/-- Primitives fail on moderate operands with expected errors only. -/
theorem expected_of_apply {primitive : Primitive} (h : primitive.apply operands = .error error)
    (hoperands : ∀ operand ∈ operands, operand.Moderate) : error.Expected := by
  cases fails_of_apply h with
  | refused habout => exact habout.expected fun operand hmem => (hoperands operand hmem).short
  | @overflow result herror hoverflows =>
    subst herror
    have hshort := hoverflows.isTooLong_eq_false fun value hmem =>
      Datum.moderate_integer_iff.mp (hoperands _ hmem)
    refine ⟨trivial, fun datum hmem number hshows => ?_⟩
    obtain rfl := List.mem_singleton.mp hmem
    cases hshows
    exact hshort

end Fails

/-- Where a result comes from. -/
inductive Yields (operands : List Datum) : Datum → Prop
  | integer {value : Int} : Numeral.Fits value ∨ .integer value ∈ operands →
      Yields operands (.integer value)
  | boolean (value : Bool) : Yields operands (.boolean value)
  | first {first : Datum} {rest : List Datum} : .list (first :: rest) ∈ operands →
      Yields operands first
  | rest {first : Datum} {rest : List Datum} : .list (first :: rest) ∈ operands →
      Yields operands (.list rest)
  | prepended {head : Datum} {tail : List Datum} : head ∈ operands → .list tail ∈ operands →
      Yields operands (.list (head :: tail))

/-- What primitives yield has every property of its operands that words and booleans have, and lists
just if all of their items do. -/
theorem Yields.preserved {P : Datum → Prop} {operands : List Datum} {result : Datum}
    (hinteger : ∀ value, Numeral.Fits value → P (.integer value))
    (hboolean : ∀ value, P (.boolean value))
    (hlist : ∀ items, P (.list items) ↔ ∀ item ∈ items, P item)
    (h : Yields operands result) (hoperands : ∀ operand ∈ operands, P operand) : P result := by
  cases h with
  | integer hvalue => exact hvalue.elim (hinteger _) (hoperands _)
  | boolean value => exact hboolean value
  | first hmem => exact (hlist _).mp (hoperands _ hmem) _ List.mem_cons_self
  | rest hmem =>
    have hitems := (hlist _).mp (hoperands _ hmem)
    exact (hlist _).mpr fun item hitem => hitems item (List.mem_cons_of_mem _ hitem)
  | prepended hhead htail =>
    exact (hlist _).mpr
      (List.forall_mem_cons.mpr ⟨hoperands _ hhead, (hlist _).mp (hoperands _ htail)⟩)

theorem uncons_eq_ok {operator : Name} {operands rest : List Datum} {first : Datum}
    (h : uncons operator operands = .ok (first, rest)) : operands = [.list (first :: rest)] := by
  unfold uncons at h
  split at h <;> cases h
  rfl

theorem yields_difference {operands : List Datum} {result : Int}
    (h : difference operands = .ok result) : Yields operands (.integer result) := by
  unfold difference at h
  split at h
  · cases h
  · next first rest =>
    split at h
    · next value hvalue =>
      obtain rfl := integer?_eq_some hvalue
      rcases fold_eq_ok h with hfits | rfl
      · exact .integer (Or.inl hfits)
      · exact .integer (Or.inr List.mem_cons_self)
    · cases h

theorem yields_prepend {operands : List Datum} {result : Datum}
    (h : prepend operands = .ok result) : Yields operands result := by
  unfold prepend at h
  split at h
  · next head tail =>
    cases h
    exact .prepended (by simp) (by simp)
  · cases h
  · cases h

private theorem exists_of_map_eq_ok {α β : Type} {result : Except Error α} {f : α → β} {b : β}
    (h : result.map f = .ok b) : ∃ a, result = .ok a ∧ f a = b := by
  cases result with
  | error => cases h
  | ok a => exact ⟨a, rfl, Except.ok.inj h⟩

/-- The result of a primitive is made from its operands in one of a few ways. -/
theorem yields_of_apply {primitive : Primitive} {operands : List Datum} {result : Datum}
    (h : primitive.apply operands = .ok result) : Yields operands result := by
  have harithmetic {operator : Name} {operation : Int → Int → Int} {start : Int}
      (hstart : Numeral.Fits start)
      (h : (fold operator operation start operands).map .integer = .ok result) :
      Yields operands result := by
    obtain ⟨value, hvalue, rfl⟩ := exists_of_map_eq_ok h
    rcases fold_eq_ok hvalue with hfits | rfl
    · exact .integer (Or.inl hfits)
    · exact .integer (Or.inl hstart)
  cases primitive with
  | add => exact harithmetic (by decide) h
  | multiply => exact harithmetic (by decide) h
  | subtract =>
    obtain ⟨value, hvalue, rfl⟩ := exists_of_map_eq_ok h
    exact yields_difference hvalue
  | car =>
    obtain ⟨⟨first, rest⟩, hparts, rfl⟩ := exists_of_map_eq_ok h
    obtain rfl := uncons_eq_ok hparts
    exact .first List.mem_cons_self
  | cdr =>
    obtain ⟨⟨first, rest⟩, hparts, rfl⟩ := exists_of_map_eq_ok h
    obtain rfl := uncons_eq_ok hparts
    exact .rest List.mem_cons_self
  | cons => exact yields_prepend h
  | equal =>
    obtain ⟨values, _, rfl⟩ := exists_of_map_eq_ok h
    exact .boolean _

end Primitive

/-- The parameters of a definition are the symbols of the names it takes from them. -/
theorem Evaluation.eq_map_of_parameterNames {procedure : Name} {parameters : List Datum}
    {names : List Name} (h : parameterNames procedure parameters = .ok names) :
    parameters = names.map .symbol := by
  induction parameters generalizing names with
  | nil =>
    cases h
    rfl
  | cons parameter parameters ih =>
    simp only [parameterNames, List.mapM_cons, Bind.bind, Except.bind] at h
    split at h
    · cases h
    · next name hname =>
      split at h
      · cases h
      · next rest hrest =>
        cases h
        split at hname
        · cases hname
          rw [List.map_cons, ← ih hrest]
        · cases hname

end SmallScheme
