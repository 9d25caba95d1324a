import Mathlib.Tactic.ByContra
import SmallScheme.Assembly.Builder

/-!
# Histories of a builder

A builder does what it is told in any order and only counts the functions that it opens and leaves.
Behind a history the count is the number of functions opened less the number left
(`excess_behind`), so building can compare the two numbers and nothing else: it refuses every
history in which they differ, and no other (`build_iff_balanced`). A function that is left before
any is open goes unnoticed if another one is opened later and never left
(`build_of_leave_before_open`).
-/

namespace SmallScheme.Assembly

/-- Something that a builder is told to do. -/
inductive Operation where
  | openFunction (name : String)
  | leaveFunction
  | add (line : String)
  | move (move : Move)
  | store (offer : Offer)

namespace Operation

/-- The builder behind an operation. An offer that is refused changes nothing, and neither does a
move that has no text. -/
def perform (builder : Builder) : Operation → Builder
  | .openFunction name => builder.openFunction name
  | .leaveFunction => builder.leaveFunction
  | .add line => builder.add line
  | .move instruction => (builder.move instruction).2
  | .store offer => (builder.store offer).2

/-- Whether an operation opens a function. -/
def opens : Operation → Bool
  | .openFunction _ => true
  | _ => false

/-- Whether an operation leaves a function. -/
def leaves : Operation → Bool
  | .leaveFunction => true
  | _ => false

end Operation

/-- The number of functions that a history opens. -/
def opened (history : List Operation) : Nat :=
  history.countP Operation.opens

/-- The number of functions that a history leaves. -/
def left (history : List Operation) : Nat :=
  history.countP Operation.leaves

theorem opened_cons (operation : Operation) (rest : List Operation) :
    opened (operation :: rest) = opened rest + if operation.opens then 1 else 0 :=
  List.countP_cons

theorem left_cons (operation : Operation) (rest : List Operation) :
    left (operation :: rest) = left rest + if operation.leaves then 1 else 0 :=
  List.countP_cons

theorem opened_append (history more : List Operation) :
    opened (history ++ more) = opened history + opened more :=
  List.countP_append

theorem left_append (history more : List Operation) :
    left (history ++ more) = left history + left more :=
  List.countP_append

/-- Leaving functions only while some function is open: more were opened before than left. -/
def NeverEarly (history : List Operation) : Prop :=
  ∀ before after, history = before ++ .leaveFunction :: after → left before < opened before

/-- Leaving every function that is opened, and none before it is opened. -/
structure WellBracketed (history : List Operation) : Prop where
  neverEarly : NeverEarly history
  closed : opened history = left history

namespace Builder

variable {builder : Builder}

/-- The builder behind a history. -/
def behind (history : List Operation) (builder : Builder) : Builder :=
  history.foldl Operation.perform builder

theorem behind_append (history more : List Operation) (builder : Builder) :
    builder.behind (history ++ more) = (builder.behind history).behind more :=
  List.foldl_append

@[simp] theorem excess_openFunction (name : String) (builder : Builder) :
    (builder.openFunction name).excess = builder.excess + 1 :=
  rfl

@[simp] theorem excess_leaveFunction (builder : Builder) :
    builder.leaveFunction.excess = builder.excess - 1 :=
  rfl

@[simp] theorem excess_add (line : String) (builder : Builder) :
    (builder.add line).excess = builder.excess :=
  rfl

@[simp] theorem excess_move (instruction : Move) (builder : Builder) :
    (builder.move instruction).2.excess = builder.excess := by
  unfold move
  cases instruction.text <;> rfl

@[simp] theorem excess_store (offer : Offer) (builder : Builder) :
    (builder.store offer).2.excess = builder.excess := by
  unfold store
  cases offer.accept <;> rfl

/-- An operation changes the count by the function that it opens or leaves. -/
theorem excess_perform (operation : Operation) (builder : Builder) :
    (operation.perform builder).excess =
      builder.excess + (if operation.opens then 1 else 0) - if operation.leaves then 1 else 0 := by
  cases operation <;> simp [Operation.perform, Operation.opens, Operation.leaves]

/-- Behind a history the count has grown by the functions opened less those left, in whatever order
they were. -/
theorem excess_behind (history : List Operation) (builder : Builder) :
    (builder.behind history).excess = builder.excess + opened history - left history := by
  induction history generalizing builder with
  | nil => simp [behind, opened, left]
  | cons operation rest ih =>
    have hrest : (builder.behind (operation :: rest)).excess =
        (operation.perform builder).excess + opened rest - left rest :=
      ih (operation.perform builder)
    rw [hrest, excess_perform, opened_cons, left_cons]
    split <;> split <;> push_cast <;> omega

/-- Building starts with the count. -/
theorem build_of_excess_ne_zero (h : builder.excess ≠ 0) :
    builder.build = .error (.reported (.unbalanced builder.excess)) := by
  rw [build, validate, if_neg h]
  rfl

theorem build_of_excess_eq_zero (h : builder.excess = 0) :
    builder.build = (builder.data.toList.mapM Record.text).map fun records =>
      String.join (builder.code.toList.map (formatLine · ++ "\n") ++ records) := by
  rw [build, validate, if_pos h]
  rcases builder.data.toList.mapM Record.text with fault | records <;> rfl

/-- If some records cannot be written, that is so because of one of them. -/
theorem exists_of_mapM_text {records : List Record} {fault : Fault}
    (h : records.mapM Record.text = .error fault) :
    ∃ record ∈ records, record.text = .error fault := by
  induction records with
  | nil => cases h
  | cons record records ih =>
    rw [List.mapM_cons] at h
    rcases htext : record.text with other | text
    · rw [htext] at h
      cases h
      exact ⟨record, List.mem_cons_self, htext⟩
    · rcases htexts : records.mapM Record.text with other | texts
      · rw [htext, htexts] at h
        cases h
        obtain ⟨found, hmem, hfound⟩ := ih htexts
        exact ⟨found, List.mem_cons_of_mem _ hmem, hfound⟩
      · rw [htext, htexts] at h
        cases h

/-- What keeps a record from being written is no error of a program. -/
theorem ne_reported_of_text {record : Record} {fault : Fault} (h : record.text = .error fault)
    (error : Error) : fault ≠ .reported error := by
  rintro rfl
  obtain ⟨label, constant⟩ := record
  have hdirective : constant.directive = .error (.reported error) := by
    rcases hresult : constant.directive with fault | text
    · rw [Record.text, Record.directive, hresult] at h
      cases h
      rfl
    · rw [Record.text, Record.directive, hresult] at h
      cases h
  unfold Constant.directive at hdirective
  split at hdirective
  · next value =>
    rcases hnumber : Numeral.decimal value with fault | number
    · rw [hnumber] at hdirective
      cases hdirective
      exact absurd (Numeral.decimal_eq_error_iff.mp hnumber).2 nofun
    · rw [hnumber] at hdirective
      cases hdirective
  · cases hdirective
  · cases hdirective
  · split at hdirective <;> cases hdirective
  all_goals cases hdirective

/-- A history is refused just if it does not leave as many functions as it opens. Otherwise there
is a text, provided that each record can be written. So a history in which no function is left
before it is opened has a text only if it is well bracketed, and is refused if it is not. -/
theorem build_iff_balanced (history : List Operation) :
    let builder := Builder.empty.behind history
    (builder.build = .error (.reported (.unbalanced (opened history - left history))) ↔
      opened history ≠ left history) ∧
    ((∀ record ∈ builder.data.toList, ∃ text, record.text = .ok text) →
      ((∃ text, builder.build = .ok text) ↔ opened history = left history)) ∧
    (NeverEarly history →
      (∀ text, builder.build = .ok text → WellBracketed history) ∧
      (¬ WellBracketed history →
        builder.build = .error (.reported (.unbalanced (opened history - left history))))) := by
  intro builder
  have hexcess : builder.excess = opened history - left history := by
    rw [excess_behind]
    exact congrArg (· - _) (Int.zero_add _)
  have hrefused : opened history ≠ left history →
      builder.build = .error (.reported (.unbalanced (opened history - left history))) := by
    intro hne
    rw [← hexcess]
    exact build_of_excess_ne_zero (by omega)
  have hbalanced : ∀ text, builder.build = .ok text → opened history = left history := by
    intro text htext
    by_contra hne
    rw [hrefused hne] at htext
    cases htext
  have hzero (heq : opened history = left history) : builder.excess = 0 := by omega
  -- A record that cannot be written stops the building too, but not with this error.
  refine ⟨⟨fun herror heq => ?_, hrefused⟩, fun hrecords => ⟨?_, fun heq => ?_⟩, fun hearly => ?_⟩
  · rcases hresult : builder.data.toList.mapM Record.text with fault | texts
    · obtain ⟨record, _, hrecord⟩ := exists_of_mapM_text hresult
      rw [build_of_excess_eq_zero (hzero heq), hresult] at herror
      cases herror
      exact ne_reported_of_text hrecord _ rfl
    · rw [build_of_excess_eq_zero (hzero heq), hresult] at herror
      cases herror
  · rintro ⟨text, htext⟩
    exact hbalanced text htext
  · rcases hresult : builder.data.toList.mapM Record.text with fault | texts
    · obtain ⟨record, hmem, hrecord⟩ := exists_of_mapM_text hresult
      obtain ⟨text, htext⟩ := hrecords record hmem
      rw [htext] at hrecord
      cases hrecord
    · exact ⟨_, by rw [build_of_excess_eq_zero (hzero heq), hresult]; rfl⟩
  · refine ⟨fun text htext => ⟨hearly, hbalanced text htext⟩, fun hbracketed => hrefused ?_⟩
    exact fun heq => hbracketed ⟨hearly, heq⟩

/-- The count forgets that a function was left before one was opened: the text begins with the
instruction that returns from no function, and the function that follows never returns. -/
theorem build_of_leave_before_open :
    let history := [.leaveFunction, .openFunction "f"]
    (Builder.empty.behind history).build =
        .ok "        ret\n.global f\n.type f, @function\nf:\n" ∧ ¬ WellBracketed history := by
  refine ⟨by with_unfolding_all rfl, fun hbracketed => ?_⟩
  have hlt := hbracketed.neverEarly [] [.openFunction "f"] rfl
  exact absurd hlt (by decide)

end Builder

end SmallScheme.Assembly
