import Mathlib.Algebra.BigOperators.Group.List.Basic
import Mathlib.Algebra.Order.BigOperators.Group.List
import Mathlib.Algebra.Order.BigOperators.GroupWithZero.List
import Mathlib.Algebra.Order.Ring.Int
import Mathlib.Data.List.Induction
import SmallScheme.Proofs.Data.Obstacles
import SmallScheme.Proofs.Evaluation.Primitives

/-!
# What arithmetic computes

Arithmetic goes through its operands step by step, and each step has to meet an integer and stay
within a word. So it yields the exact result of all operands if every one of them is an integer and
the exact results of all beginnings fit, and otherwise fails on the first operand that does not let
it go on. What it starts from is not checked, which only a difference takes from its operands.

Beginnings depend on the order of the operands, and so do overflows, but not the exact result. Where
the beginnings grow towards the result it alone decides, so the order does not matter.
-/

namespace SmallScheme

namespace Primitive

variable {operator : Name} {operation : Int → Int → Int} {start accumulated result : Int}
  {operand : Datum} {operands : List Datum} {error : Error}

theorem step_eq_ok_iff :
    step operator operation accumulated operand = .ok result ↔
      ∃ value, operand = .integer value ∧ Numeral.Fits (operation accumulated value) ∧
        result = operation accumulated value := by
  unfold step
  split
  · next value hvalue =>
    obtain rfl := integer?_eq_some hvalue
    unfold checked
    split
    · next hfits => simp [hfits, eq_comm]
    · next hfits => simp [hfits]
  · next hnone =>
    constructor
    · rintro ⟨⟩
    · rintro ⟨value, rfl, _⟩
      cases hnone

theorem step_eq_error_iff :
    step operator operation accumulated operand = .error error ↔
      ((∀ value, operand ≠ .integer value) ∧ error = .operand operator operand) ∨
        ∃ value, operand = .integer value ∧ ¬ Numeral.Fits (operation accumulated value) ∧
          error = .overflow (operation accumulated value) := by
  unfold step
  split
  · next value hvalue =>
    obtain rfl := integer?_eq_some hvalue
    unfold checked
    split
    · next hfits => simp [hfits]
    · next hfits => simp [hfits, eq_comm]
  · next hnone =>
    have hkind : ∀ value, operand ≠ .integer value := by
      rintro value rfl
      cases hnone
    simp [hkind, eq_comm]

theorem fold_cons :
    fold operator operation start (operand :: operands) =
      step operator operation start operand >>= fun next => fold operator operation next operands :=
  List.foldlM_cons

/-- Fitting behind every step from a start through some integers. -/
def FitsThroughout (operation : Int → Int → Int) (start : Int) (values : List Int) : Prop :=
  ∀ taken, taken <+: values → taken ≠ [] → Numeral.Fits (taken.foldl operation start)

theorem fitsThroughout_nil : FitsThroughout operation start [] :=
  fun _ htaken hne => absurd (List.prefix_nil.mp htaken) hne

theorem fitsThroughout_cons {value : Int} {values : List Int} :
    FitsThroughout operation start (value :: values) ↔
      Numeral.Fits (operation start value) ∧
        FitsThroughout operation (operation start value) values := by
  constructor
  · intro h
    refine ⟨h [value] (by simp) (by simp), fun taken htaken _ => ?_⟩
    exact h (value :: taken) (List.cons_prefix_cons.mpr ⟨rfl, htaken⟩) (by simp)
  · rintro ⟨hfirst, hrest⟩ taken htaken hne
    rcases List.prefix_cons_iff.mp htaken with rfl | ⟨later, rfl, hlater⟩
    · exact absurd rfl hne
    · by_cases hnil : later = []
      · subst hnil
        exact hfirst
      · exact hrest later hlater hnil

/-- Arithmetic yields the exact result of integers if it fits behind every step. -/
theorem fold_eq_ok_iff :
    fold operator operation start operands = .ok result ↔
      ∃ values, operands = values.map .integer ∧ FitsThroughout operation start values ∧
        result = values.foldl operation start := by
  induction operands generalizing start with
  | nil =>
    constructor
    · rintro ⟨⟩
      exact ⟨[], rfl, fitsThroughout_nil, rfl⟩
    · rintro ⟨values, hvalues, _, rfl⟩
      obtain rfl := List.map_eq_nil_iff.mp hvalues.symm
      rfl
  | cons operand operands ih =>
    rw [fold_cons]
    constructor
    · intro h
      rcases hstep : step operator operation start operand with cause | next
      · rw [hstep] at h
        cases h
      · rw [hstep] at h
        obtain ⟨value, rfl, hfits, rfl⟩ := step_eq_ok_iff.mp hstep
        obtain ⟨values, rfl, hthroughout, rfl⟩ := ih.mp h
        exact ⟨value :: values, rfl, fitsThroughout_cons.mpr ⟨hfits, hthroughout⟩, rfl⟩
    · rintro ⟨values, hvalues, hthroughout, rfl⟩
      cases values with
      | nil => cases hvalues
      | cons value values =>
        obtain ⟨rfl, rfl⟩ := List.cons.inj hvalues
        obtain ⟨hfits, hrest⟩ := fitsThroughout_cons.mp hthroughout
        rw [step_eq_ok_iff.mpr ⟨value, rfl, hfits, rfl⟩]
        exact ih.mpr ⟨values, rfl, hrest, rfl⟩

/-- Arithmetic fails on the first operand that does not let it go on. -/
theorem fold_eq_error_iff :
    fold operator operation start operands = .error error ↔
      ∃ values operand rest, operands = values.map .integer ++ operand :: rest ∧
        FitsThroughout operation start values ∧
        step operator operation (values.foldl operation start) operand = .error error := by
  induction operands generalizing start with
  | nil =>
    constructor
    · rintro ⟨⟩
    · rintro ⟨values, operand, rest, hoperands, _⟩
      simp at hoperands
  | cons operand operands ih =>
    rw [fold_cons]
    constructor
    · intro h
      rcases hstep : step operator operation start operand with cause | next
      · rw [hstep] at h
        cases h
        exact ⟨[], operand, operands, rfl, fitsThroughout_nil, hstep⟩
      · rw [hstep] at h
        obtain ⟨value, rfl, hfits, rfl⟩ := step_eq_ok_iff.mp hstep
        obtain ⟨values, found, rest, rfl, hthroughout, herror⟩ := ih.mp h
        exact ⟨value :: values, found, rest, rfl, fitsThroughout_cons.mpr ⟨hfits, hthroughout⟩,
          herror⟩
    · rintro ⟨values, found, rest, hoperands, hthroughout, herror⟩
      cases values with
      | nil =>
        obtain ⟨rfl, rfl⟩ := List.cons.inj hoperands
        rw [show step operator operation start operand = .error error from herror]
        rfl
      | cons value values =>
        obtain ⟨rfl, rfl⟩ := List.cons.inj hoperands
        obtain ⟨hfits, hrest⟩ := fitsThroughout_cons.mp hthroughout
        rw [step_eq_ok_iff.mpr ⟨value, rfl, hfits, rfl⟩]
        exact ih.mpr ⟨values, found, rest, rfl, hrest, herror⟩

end Primitive

/-- The arithmetic among the primitives. -/
inductive Arithmetic where
  | sum
  | product
  | difference
  deriving DecidableEq, Repr

namespace Arithmetic

def primitive : Arithmetic → Primitive
  | .sum => .add
  | .product => .multiply
  | .difference => .subtract

/-- The name that errors give to the arithmetic. -/
def operator : Arithmetic → Name
  | .sum => "+"
  | .product => "*"
  | .difference => "-"

/-- The exact result of some integers. -/
def total : Arithmetic → List Int → Int
  | .sum, values => values.sum
  | .product, values => values.prod
  | .difference, values => values.headD 0 - values.tail.sum

/-- How many operands the arithmetic starts from, before it takes its first step. -/
def seeds : Arithmetic → Nat
  | .difference => 1
  | .sum | .product => 0

/-- Having exact results that fit, for all beginnings behind which a step has been taken. -/
def Bounded (arithmetic : Arithmetic) (values : List Int) : Prop :=
  ∀ taken, taken <+: values → arithmetic.seeds < taken.length →
    Numeral.Fits (arithmetic.total taken)

/-- Yielding a result: the exact one of operands that are integers and bounded. -/
def Computes (arithmetic : Arithmetic) (operands : List Datum) (result : Datum) : Prop :=
  ∃ values : List Int, operands = values.map .integer ∧ arithmetic.seeds ≤ values.length ∧
    arithmetic.Bounded values ∧ result = .integer (arithmetic.total values)

/-- Failing on the first operand that does not let the arithmetic go on: one that is no integer, or
one with which the exact result does not fit. There may be nothing to start from. -/
inductive Refuses (arithmetic : Arithmetic) (operands : List Datum) : Error → Prop
  | missing : operands.length < arithmetic.seeds → Refuses arithmetic operands .minusArity
  | kind {values : List Int} {operand : Datum} {rest : List Datum} :
      operands = values.map .integer ++ operand :: rest → arithmetic.Bounded values →
      (∀ value, operand ≠ .integer value) →
      Refuses arithmetic operands (.operand arithmetic.operator operand)
  | size {values : List Int} {value : Int} {rest : List Datum} :
      operands = values.map .integer ++ .integer value :: rest → arithmetic.Bounded values →
      arithmetic.seeds ≤ values.length →
      ¬ Numeral.Fits (arithmetic.total (values ++ [value])) →
      Refuses arithmetic operands (.overflow (arithmetic.total (values ++ [value])))

variable {arithmetic : Arithmetic} {operands : List Datum} {result : Datum} {error : Error}
  {values : List Int}

theorem bounded_nil (arithmetic : Arithmetic) : arithmetic.Bounded [] := by
  intro taken htaken hlength
  rw [List.prefix_nil.mp htaken] at hlength
  exact absurd hlength (Nat.not_lt_zero _)

/-- A step of the arithmetic. -/
def operation : Arithmetic → Int → Int → Int
  | .sum => (· + ·)
  | .product => (· * ·)
  | .difference => (· - ·)

/-- One more integer takes one more step. -/
theorem total_concat (h : arithmetic.seeds ≤ values.length) (value : Int) :
    arithmetic.total (values ++ [value]) =
      arithmetic.operation (arithmetic.total values) value := by
  cases arithmetic with
  | sum => simp [total, operation]
  | product => simp [total, operation]
  | difference =>
    cases values with
    | nil => exact absurd h (Nat.not_succ_le_zero 0)
    | cons first rest =>
      simp only [total, operation, List.cons_append, List.headD_cons, List.tail_cons,
        List.sum_append, List.sum_singleton]
      omega

section Begun

variable {begun : List Int} (hbegun : begun.length = arithmetic.seeds)
include hbegun

/-- The steps that follow what the arithmetic starts from lead to the exact result. -/
theorem foldl_total (values : List Int) :
    values.foldl arithmetic.operation (arithmetic.total begun) =
      arithmetic.total (begun ++ values) := by
  induction values using List.reverseRecOn with
  | nil => rw [List.append_nil, List.foldl_nil]
  | append_singleton values value ih =>
    have hseeds : arithmetic.seeds ≤ (begun ++ values).length := by
      rw [List.length_append]
      omega
    rw [List.foldl_append, ih, ← List.append_assoc, total_concat hseeds]
    rfl

theorem bounded_append_iff :
    arithmetic.Bounded (begun ++ values) ↔
      Primitive.FitsThroughout arithmetic.operation (arithmetic.total begun) values := by
  constructor
  · intro h taken htaken hne
    rw [foldl_total hbegun]
    refine h (begun ++ taken) ((List.prefix_append_right_inj begun).mpr htaken) ?_
    have hpos := List.length_pos_iff.mpr hne
    rw [List.length_append]
    omega
  · intro h taken htaken hlength
    -- A beginning behind a step starts with everything that the arithmetic starts from.
    obtain ⟨later, rfl⟩ : begun <+: taken :=
      List.prefix_of_prefix_length_le (List.prefix_append begun values) htaken (by omega)
    rw [← foldl_total hbegun]
    refine h later ((List.prefix_append_right_inj begun).mp htaken) ?_
    rintro rfl
    rw [List.append_nil] at hlength
    omega

theorem apply_begun (operands : List Datum) :
    arithmetic.primitive.apply (begun.map .integer ++ operands) =
      (Primitive.fold arithmetic.operator arithmetic.operation (arithmetic.total begun)
        operands).map .integer := by
  cases arithmetic with
  | sum =>
    obtain rfl := List.length_eq_zero_iff.mp hbegun
    rfl
  | product =>
    obtain rfl := List.length_eq_zero_iff.mp hbegun
    rfl
  | difference =>
    obtain ⟨first, rfl⟩ := List.length_eq_one_iff.mp hbegun
    have hfirst : total .difference [first] = first := Int.sub_zero first
    rw [hfirst]
    rfl

/-- A row of operands that starts like another one with integers goes on with the rest of it. -/
theorem exists_of_append_eq {operands tail : List Datum} {values : List Int}
    (h : begun.map Datum.integer ++ operands = values.map Datum.integer ++ tail)
    (hlength : arithmetic.seeds ≤ values.length) :
    ∃ later, values = begun ++ later ∧ operands = later.map Datum.integer ++ tail := by
  rw [← List.take_append_drop begun.length values, List.map_append, List.append_assoc] at h
  have htake : (values.take begun.length).length = begun.length := by
    rw [List.length_take]
    omega
  obtain ⟨hfirst, hrest⟩ := List.append_inj h (by rw [List.length_map, List.length_map, htake])
  have hinjective : Function.Injective Datum.integer := fun _ _ => Datum.integer.inj
  have hsplit := List.take_append_drop begun.length values
  rw [← List.map_injective_iff.mpr hinjective hfirst] at hsplit
  exact ⟨values.drop begun.length, hsplit.symm, hrest⟩

theorem computes_begun_iff {operands : List Datum} :
    arithmetic.Computes (begun.map .integer ++ operands) result ↔
      (Primitive.fold arithmetic.operator arithmetic.operation (arithmetic.total begun)
        operands).map .integer = .ok result := by
  constructor
  · rintro ⟨values, hoperands, hseeds, hbounded, rfl⟩
    rw [← List.append_nil (values.map Datum.integer)] at hoperands
    obtain ⟨later, rfl, rfl⟩ := exists_of_append_eq hbegun hoperands hseeds
    rw [bounded_append_iff hbegun] at hbounded
    rw [List.append_nil, Primitive.fold_eq_ok_iff.mpr ⟨later, rfl, hbounded, rfl⟩,
      foldl_total hbegun]
    rfl
  · intro h
    rcases hfold : Primitive.fold arithmetic.operator arithmetic.operation (arithmetic.total begun)
      operands with cause | number
    · rw [hfold] at h
      cases h
    · rw [hfold] at h
      cases h
      obtain ⟨later, rfl, hbounded, rfl⟩ := Primitive.fold_eq_ok_iff.mp hfold
      refine ⟨begun ++ later, by rw [List.map_append], ?_, (bounded_append_iff hbegun).mpr hbounded,
        by rw [foldl_total hbegun]⟩
      rw [List.length_append]
      omega

theorem refuses_begun_iff {operands : List Datum} :
    arithmetic.Refuses (begun.map .integer ++ operands) error ↔
      Primitive.fold arithmetic.operator arithmetic.operation (arithmetic.total begun) operands =
        .error error := by
  rw [Primitive.fold_eq_error_iff]
  constructor
  · intro h
    cases h with
    | missing hlength =>
      rw [List.length_append, List.length_map] at hlength
      omega
    | @kind values operand rest hoperands hbounded hkind =>
      have hseeds : arithmetic.seeds ≤ values.length := by
        by_contra hshort
        have hlt : values.length < begun.length := by omega
        have hentry := congrArg (fun row => row[values.length]?) hoperands
        simp [List.getElem?_append, hlt] at hentry
        exact hkind _ hentry.symm
      obtain ⟨later, rfl, rfl⟩ := exists_of_append_eq hbegun hoperands hseeds
      refine ⟨later, operand, rest, rfl, (bounded_append_iff hbegun).mp hbounded, ?_⟩
      exact Primitive.step_eq_error_iff.mpr (Or.inl ⟨hkind, rfl⟩)
    | @size values value rest hoperands hbounded hseeds hfits =>
      obtain ⟨later, rfl, rfl⟩ := exists_of_append_eq hbegun hoperands hseeds
      refine ⟨later, .integer value, rest, rfl, (bounded_append_iff hbegun).mp hbounded, ?_⟩
      rw [foldl_total hbegun]
      rw [total_concat hseeds] at hfits ⊢
      exact Primitive.step_eq_error_iff.mpr (Or.inr ⟨value, rfl, hfits, rfl⟩)
  · rintro ⟨later, operand, rest, rfl, hbounded, herror⟩
    have hall := (bounded_append_iff hbegun).mpr hbounded
    rw [← List.append_assoc, ← List.map_append]
    rcases Primitive.step_eq_error_iff.mp herror with ⟨hkind, rfl⟩ | ⟨value, rfl, hfits, rfl⟩
    · exact .kind rfl hall hkind
    · have hseeds : arithmetic.seeds ≤ (begun ++ later).length := by
        rw [List.length_append]
        omega
      rw [foldl_total hbegun, ← total_concat hseeds] at hfits ⊢
      exact .size rfl hall hseeds hfits

end Begun

/-- Operands start with the integers that the arithmetic starts from, or a difference has nothing to
start from. -/
theorem begun_cases (arithmetic : Arithmetic) (operands : List Datum) :
    (∃ begun : List Int, ∃ rest, begun.length = arithmetic.seeds ∧
      operands = begun.map .integer ++ rest) ∨
    (arithmetic = .difference ∧ operands = []) ∨
    arithmetic = .difference ∧ ∃ first rest, operands = first :: rest ∧
      ∀ value, first ≠ .integer value := by
  cases arithmetic with
  | sum => exact Or.inl ⟨[], operands, rfl, rfl⟩
  | product => exact Or.inl ⟨[], operands, rfl, rfl⟩
  | difference =>
    cases operands with
    | nil => exact Or.inr (Or.inl ⟨rfl, rfl⟩)
    | cons first rest =>
      cases first with
      | integer value => exact Or.inl ⟨[value], rest, rfl, rfl⟩
      | _ => exact Or.inr (Or.inr ⟨rfl, _, rest, rfl, fun _ => Datum.noConfusion⟩)

theorem difference_of_ne_integer {first : Datum} (h : ∀ value, first ≠ .integer value)
    (rest : List Datum) :
    Primitive.subtract.apply (first :: rest) = .error (.operand "-" first) := by
  cases first with
  | integer value => exact absurd rfl (h value)
  | _ => rfl

/-- Arithmetic yields just the exact results of bounded integers. -/
theorem apply_eq_ok_iff :
    arithmetic.primitive.apply operands = .ok result ↔ arithmetic.Computes operands result := by
  rcases arithmetic.begun_cases operands with
    ⟨begun, rest, hbegun, rfl⟩ | ⟨rfl, rfl⟩ | ⟨rfl, first, rest, rfl, hkind⟩
  · rw [apply_begun hbegun, computes_begun_iff hbegun]
  · constructor
    · rintro ⟨⟩
    · rintro ⟨values, hvalues, hseeds, _⟩
      rw [List.map_eq_nil_iff.mp hvalues.symm] at hseeds
      exact absurd hseeds (Nat.not_succ_le_zero 0)
  · constructor
    · intro h
      rw [primitive, difference_of_ne_integer hkind] at h
      cases h
    · rintro ⟨values, hvalues, _⟩
      cases values with
      | nil => cases hvalues
      | cons value values => exact absurd (List.cons.inj hvalues).1 (hkind value)

/-- Arithmetic fails just on the first operand that does not let it go on. -/
theorem apply_eq_error_iff :
    arithmetic.primitive.apply operands = .error error ↔ arithmetic.Refuses operands error := by
  rcases arithmetic.begun_cases operands with
    ⟨begun, rest, hbegun, rfl⟩ | ⟨rfl, rfl⟩ | ⟨rfl, first, rest, rfl, hkind⟩
  · rw [apply_begun hbegun, refuses_begun_iff hbegun]
    rcases Primitive.fold arithmetic.operator arithmetic.operation (arithmetic.total begun)
      rest with cause | number
    · simp only [Except.map, Except.error.injEq]
    · exact ⟨nofun, nofun⟩
  · constructor
    · rintro ⟨⟩
      exact .missing Nat.zero_lt_one
    · intro h
      cases h with
      | missing => rfl
      | kind hoperands => simp at hoperands
      | size hoperands => simp at hoperands
  · rw [primitive, difference_of_ne_integer hkind]
    constructor
    · rintro ⟨⟩
      have hnone : first :: rest = ([] : List Int).map .integer ++ first :: rest := rfl
      exact .kind hnone (bounded_nil _) hkind
    · intro h
      cases h with
      | missing hlength => simp [seeds] at hlength
      | @kind values operand _ hoperands =>
        cases values with
        | nil =>
          obtain ⟨rfl, -⟩ := List.cons.inj hoperands
          rfl
        | cons value values => exact absurd (List.cons.inj hoperands).1 (hkind value)
      | @size values value _ hoperands _ hseeds =>
        cases values with
        | nil => exact absurd hseeds (Nat.not_succ_le_zero 0)
        | cons value values => exact absurd (List.cons.inj hoperands).1 (hkind value)

/-- Among integers only an exact result that does not fit keeps arithmetic from its result. -/
theorem overflows_iff_not_bounded (hseeds : arithmetic.seeds ≤ values.length) :
    (∃ number, arithmetic.primitive.apply (values.map .integer) = .error (.overflow number)) ↔
      ¬ arithmetic.Bounded values := by
  constructor
  · rintro ⟨number, hnumber⟩ hbounded
    have hresult := apply_eq_ok_iff.mpr ⟨values, rfl, hseeds, hbounded, rfl⟩
    rw [hnumber] at hresult
    cases hresult
  · intro hbounded
    rcases hresult : arithmetic.primitive.apply (values.map .integer) with cause | result
    · have hrefuses := apply_eq_error_iff.mp hresult
      cases hrefuses with
      | missing hlength =>
        rw [List.length_map] at hlength
        omega
      | @kind _ operand _ hoperands _ hkind =>
        have hmem : operand ∈ values.map Datum.integer := by simp [hoperands]
        obtain ⟨value, _, rfl⟩ := List.mem_map.mp hmem
        exact absurd rfl (hkind value)
      | size => exact ⟨_, rfl⟩
    · obtain ⟨others, hothers, _, hall, _⟩ := apply_eq_ok_iff.mp hresult
      have hinjective : Function.Injective Datum.integer := fun _ _ => Datum.integer.inj
      rw [List.map_injective_iff.mpr hinjective hothers] at hbounded
      exact absurd hall hbounded

/-- Being an integer that never lessens what the arithmetic has come to. -/
def Grows : Arithmetic → Int → Prop
  | .sum, value => 0 ≤ value
  | .product, value => 0 < value
  | .difference, _ => False

/-- Where the integers let results grow, a beginning has no greater result than the whole. -/
theorem total_le_of_grows (hne : arithmetic ≠ .difference) {more : List Int}
    (hgrows : ∀ value ∈ values ++ more, arithmetic.Grows value) :
    0 ≤ arithmetic.total values ∧ arithmetic.total values ≤ arithmetic.total (values ++ more) := by
  cases arithmetic with
  | sum =>
    have hvalues : 0 ≤ values.sum :=
      List.sum_nonneg fun value hvalue => hgrows value (List.mem_append_left _ hvalue)
    have hmore : 0 ≤ more.sum :=
      List.sum_nonneg fun value hvalue => hgrows value (List.mem_append_right _ hvalue)
    simp only [total, List.sum_append]
    omega
  | product =>
    have hvalues : 0 < values.prod :=
      List.prod_pos fun value hvalue => hgrows value (List.mem_append_left _ hvalue)
    have hmore : 0 < more.prod :=
      List.prod_pos fun value hvalue => hgrows value (List.mem_append_right _ hvalue)
    simp only [total, List.prod_append]
    exact ⟨hvalues.le, le_mul_of_one_le_right hvalues.le hmore⟩
  | difference => exact absurd rfl hne

/-- Where the integers let results grow, only the result of all of them has to fit. -/
theorem bounded_iff_of_grows (hne : arithmetic ≠ .difference)
    (hgrows : ∀ value ∈ values, arithmetic.Grows value) :
    arithmetic.Bounded values ↔ Numeral.Fits (arithmetic.total values) := by
  constructor
  · intro h
    by_cases hnil : values = []
    · subst hnil
      cases arithmetic with
      | sum => decide
      | product => decide
      | difference => exact absurd rfl hne
    · refine h values List.prefix_rfl ?_
      have hpos := List.length_pos_iff.mpr hnil
      cases arithmetic with
      | sum => exact hpos
      | product => exact hpos
      | difference => exact absurd rfl hne
  · rintro ⟨_, hgreatest⟩ taken ⟨more, rfl⟩ _
    obtain ⟨hpos, hle⟩ := total_le_of_grows hne hgrows
    refine ⟨?_, hle.trans hgreatest⟩
    simp only [Numeral.least]
    omega

theorem total_perm (hne : arithmetic ≠ .difference) {others : List Int}
    (hperm : values.Perm others) : arithmetic.total values = arithmetic.total others := by
  cases arithmetic with
  | sum => exact hperm.sum_eq
  | product => exact hperm.prod_eq
  | difference => exact absurd rfl hne

/-- Operands in another order are the same integers in another order. -/
theorem perm_of_map_perm {values others : List Int}
    (h : (values.map Datum.integer).Perm (others.map Datum.integer)) : values.Perm others := by
  have hinteger (row : List Int) : (row.map Datum.integer).filterMap Primitive.integer? = row := by
    rw [List.filterMap_map]
    exact List.filterMap_some
  have hfilter := h.filterMap Primitive.integer?
  rwa [hinteger, hinteger] at hfilter

/-- Operands that are all integers are a row of them. -/
theorem exists_integers {property : Int → Prop}
    (h : ∀ operand ∈ operands, ∃ value, operand = .integer value ∧ property value) :
    ∃ values : List Int, operands = values.map .integer ∧ ∀ value ∈ values, property value := by
  induction operands with
  | nil => exact ⟨[], rfl, fun value hvalue => absurd hvalue List.not_mem_nil⟩
  | cons operand operands ih =>
    obtain ⟨⟨value, rfl, hvalue⟩, hrest⟩ := List.forall_mem_cons.mp h
    obtain ⟨values, rfl, hvalues⟩ := ih hrest
    exact ⟨value :: values, rfl, List.forall_mem_cons.mpr ⟨hvalue, hvalues⟩⟩

/-- Arithmetic on operands in another order comes to the same result, if to any. -/
theorem eq_of_perm (hne : arithmetic ≠ .difference) {others : List Datum}
    (hperm : operands.Perm others) {other : Datum}
    (h : arithmetic.primitive.apply operands = .ok result)
    (hother : arithmetic.primitive.apply others = .ok other) : result = other := by
  obtain ⟨values, rfl, _, _, rfl⟩ := apply_eq_ok_iff.mp h
  obtain ⟨values', rfl, _, _, rfl⟩ := apply_eq_ok_iff.mp hother
  rw [total_perm hne (perm_of_map_perm hperm)]

/-- Where the integers let results grow, their order does not matter to whether one overflows. -/
theorem overflows_perm (hne : arithmetic ≠ .difference) {others : List Datum}
    (hperm : operands.Perm others)
    (hgrows : ∀ operand ∈ operands, ∃ value, operand = .integer value ∧ arithmetic.Grows value) :
    (∃ number, arithmetic.primitive.apply operands = .error (.overflow number)) ↔
      ∃ number, arithmetic.primitive.apply others = .error (.overflow number) := by
  obtain ⟨values, rfl, hvalues⟩ := exists_integers hgrows
  obtain ⟨values', rfl, hvalues'⟩ := exists_integers fun operand hmem =>
    hgrows operand (hperm.mem_iff.mpr hmem)
  have hseeds (row : List Int) : arithmetic.seeds ≤ row.length := by
    cases arithmetic with
    | sum => exact Nat.zero_le _
    | product => exact Nat.zero_le _
    | difference => exact absurd rfl hne
  rw [overflows_iff_not_bounded (hseeds _), overflows_iff_not_bounded (hseeds _),
    bounded_iff_of_grows hne hvalues, bounded_iff_of_grows hne hvalues',
    total_perm hne (perm_of_map_perm hperm)]

/-- An error of arithmetic is raised as itself just if it can be worded. -/
theorem Refuses.fault_eq_reported_iff (h : arithmetic.Refuses operands error) (limits : Limits) :
    error.fault limits = .reported error ↔ error.obstacle? limits = none := by
  rw [Error.fault]
  constructor
  · intro hfault
    rcases hobstacle : error.obstacle? limits with _ | obstacle
    · rfl
    · rw [hobstacle] at hfault
      rcases Error.obstacle?_cases hobstacle with hdepth | ⟨rfl, _⟩
      · cases hdepth with
        | exhausted => cases hfault
        | unprintable =>
          cases hfault
          cases h
      · cases hfault
  · intro hnone
    rw [hnone]
    rfl

/-- A number with too many digits is what keeps an overflow from being raised as such. -/
theorem fault_overflow_eq_iff (number : Int) (limits : Limits) :
    (Error.overflow number).fault limits = .numberTooLong ↔ Numeral.isTooLong number = true := by
  rw [Error.fault, Error.obstacle?_overflow, Numeral.obstacle?]
  split
  · next hlong => exact iff_of_true rfl hlong
  · next hshort => exact iff_of_false Fault.noConfusion hshort

/-- A sum, a product or a difference is yielded just if every operand is an integer, a difference
has an operand to start from, and the exact results fit behind every step; it is the exact one of
all operands. Otherwise the first operand that does not let the arithmetic go on decides the error:
it is no integer, or the exact result with it does not fit. The error is raised as such just if it
can be worded: an overflow cannot if its number has too many digits, and an error about an operand
cannot if the operand is nested too deeply or shows such a number.

Operands of a sum or a product in another order never yield another integer. If none of a sum is
negative, or all of a product are positive, the order does not matter to overflows either. -/
theorem computes_or_refuses (arithmetic : Arithmetic) (operands : List Datum) :
    let outcome := arithmetic.primitive.apply operands
    (∀ result, outcome = .ok result ↔ arithmetic.Computes operands result) ∧
      (∀ error, outcome = .error error ↔ arithmetic.Refuses operands error) ∧
      (∀ error, arithmetic.Refuses operands error → ∀ limits, ∃ fault,
        outcome.mapError (Error.fault limits) = .error fault ∧
        (fault = .reported error ↔ error.obstacle? limits = none) ∧
        (fault = .reported error ∨ fault.OfDepth ∨
          fault = .numberTooLong ∧ ∃ datum ∈ error.described,
            ∃ number, datum.Shows number ∧ Numeral.isTooLong number = true) ∧
        ∀ number, error = .overflow number →
          (fault = .numberTooLong ↔ Numeral.isTooLong number = true)) ∧
      (arithmetic ≠ .difference → ∀ others, operands.Perm others →
        (∀ result other, outcome = .ok result → arithmetic.primitive.apply others = .ok other →
          result = other) ∧
        ((∀ operand ∈ operands, ∃ value, operand = .integer value ∧ arithmetic.Grows value) →
          ((∃ number, outcome = .error (.overflow number)) ↔
            ∃ number, arithmetic.primitive.apply others = .error (.overflow number)))) := by
  intro outcome
  refine ⟨fun result => apply_eq_ok_iff, fun error => apply_eq_error_iff,
    fun error hrefuses limits => ⟨error.fault limits, ?_, ?_, ?_, ?_⟩,
    fun hne others hperm => ⟨fun result other => ?_, ?_⟩⟩
  · rw [show outcome = .error error from apply_eq_error_iff.mpr hrefuses]
    rfl
  · exact hrefuses.fault_eq_reported_iff limits
  · exact error.fault_cases limits
  · rintro number rfl
    exact fault_overflow_eq_iff number limits
  · exact eq_of_perm hne hperm
  · exact overflows_perm hne hperm

/-- The greatest word times a number with which the product is no word is an overflow. -/
theorem multiply_greatest {factor : Int} (h : ¬ Numeral.Fits (Numeral.greatest * factor)) :
    Primitive.multiply.apply [.integer Numeral.greatest, .integer factor] =
      .error (.overflow (Numeral.greatest * factor)) := by
  have hfirst : Primitive.step "*" (· * ·) 1 (.integer Numeral.greatest) =
      .ok Numeral.greatest := rfl
  rw [Primitive.apply, Primitive.fold_cons, hfirst]
  change (Primitive.fold "*" (· * ·) Numeral.greatest [.integer factor]).map Datum.integer = _
  rw [Primitive.fold_cons, Primitive.step_eq_error_iff.mpr (Or.inr ⟨factor, rfl, h, rfl⟩)]
  rfl

/-- The greatest word times a number of four thousand three hundred digits is refused as an
overflow, but raised as a number with too many digits. -/
theorem product_raised_numberTooLong :
    let operands : List Datum := [.integer Numeral.greatest, .integer (Numeral.tenTo 4299)]
    Arithmetic.product.Refuses operands (.overflow (Numeral.greatest * Numeral.tenTo 4299)) ∧
      (Primitive.multiply.apply operands).mapError (Error.fault .standard) =
        .error .numberTooLong := by
  intro operands
  have hlong : Numeral.isTooLong (Numeral.greatest * Numeral.tenTo 4299) = true := by
    decide +kernel
  have happly : Primitive.multiply.apply operands =
      .error (.overflow (Numeral.greatest * Numeral.tenTo 4299)) :=
    multiply_greatest (by decide +kernel)
  refine ⟨apply_eq_error_iff.mp happly, ?_⟩
  rw [happly]
  exact congrArg Except.error ((fault_overflow_eq_iff _ _).mpr hlong)

end Arithmetic

end SmallScheme
