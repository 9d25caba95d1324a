import SmallScheme.Proofs.Assembly.History
import SmallScheme.Proofs.Assembly.Lines

/-!
# What histories leave in a builder

A builder only appends. Behind a history its code is the lines of the operations, one after the
other (`code_behind`), and its data are the constants that were accepted, numbered in their order
(`data_behind`). The text is that of the code lines in their columns and of two lines for each
record (`build_eq_ok_iff`), and it exists as soon as no function is left open and every constant can
be written (`exists_build_iff`).
-/

namespace SmallScheme.Assembly

/-- The lines that open a function. -/
def openingLines (name : String) : List String :=
  [".global " ++ name, ".type " ++ name ++ ", @function", name ++ ":"]

/-- The code lines that an operation adds. A move adds one, or none if it has no text. -/
def Operation.lines : Operation → List String
  | .openFunction name => openingLines name
  | .leaveFunction => ["ret"]
  | .add line => [line]
  | .move instruction => instruction.text.toOption.toList
  | .store _ => []

/-- The constants that an operation stores: one, or none. -/
def Operation.constants : Operation → List Constant
  | .store offer =>
    match offer.accept with
    | .ok constant => [constant]
    | .error _ => []
  | _ => []

/-- The label of the record of a number. -/
def recordLabel (index : Nat) : String :=
  "LC_" ++ toString index

/-- The records of constants, numbered from zero on. -/
def recordsOf (constants : List Constant) : List Record :=
  constants.zipIdx.map fun (constant, index) => ⟨recordLabel index, constant⟩

@[simp] theorem length_recordsOf (constants : List Constant) :
    (recordsOf constants).length = constants.length := by
  simp [recordsOf]

theorem recordsOf_concat (constants : List Constant) (constant : Constant) :
    recordsOf (constants ++ [constant]) =
      recordsOf constants ++ [⟨recordLabel constants.length, constant⟩] := by
  simp [recordsOf, List.zipIdx_append]

/-- Labels of records begin with a letter and go on with an underscore and a number. -/
theorem isLine_recordLabel (index : Nat) : IsLine (recordLabel index) := by
  intro hmem
  rw [recordLabel, String.toList_append, List.mem_append, Nat.toString_eq_repr,
    Nat.toList_repr] at hmem
  rcases hmem with hmem | hmem
  · exact absurd hmem (by simp)
  · exact absurd (Nat.isDigit_of_mem_toDigits (by decide) (by decide) hmem) (by decide)

theorem map_constant_recordsOf (constants : List Constant) :
    (recordsOf constants).map Record.constant = constants := by
  calc (recordsOf constants).map Record.constant
      = constants.zipIdx.map Prod.fst := by
        rw [recordsOf, List.map_map]
        rfl
    _ = constants := List.zipIdx_map_fst 0 constants

theorem map_label_recordsOf (constants : List Constant) :
    (recordsOf constants).map Record.label = (List.range constants.length).map recordLabel := by
  calc (recordsOf constants).map Record.label
      = (constants.zipIdx.map Prod.snd).map recordLabel := by
        rw [recordsOf, List.map_map, List.map_map]
        rfl
    _ = (List.range constants.length).map recordLabel := by
        rw [List.zipIdx_map_snd, List.range_eq_range']

theorem forall_constant_recordsOf {constants : List Constant} {property : Constant → Prop} :
    (∀ record ∈ recordsOf constants, property record.constant) ↔
      ∀ constant ∈ constants, property constant := by
  rw [← List.forall_mem_map (f := Record.constant), map_constant_recordsOf]

theorem isLine_of_mem_recordsOf {constants : List Constant} {record : Record}
    (h : record ∈ recordsOf constants) : IsLine record.label := by
  obtain ⟨⟨constant, index⟩, _, rfl⟩ := List.mem_map.mp h
  exact isLine_recordLabel index

namespace Builder

variable {builder : Builder}

theorem code_perform (operation : Operation) (builder : Builder) :
    (operation.perform builder).code.toList = builder.code.toList ++ operation.lines := by
  cases operation with
  | openFunction name =>
    simp [Operation.perform, openFunction, add, Operation.lines, openingLines]
  | leaveFunction => simp [Operation.perform, leaveFunction, add, Operation.lines]
  | add line => simp [Operation.perform, add, Operation.lines]
  | move instruction =>
    rw [Operation.perform, move, Operation.lines]
    rcases instruction.text with fault | line
    · exact (List.append_nil _).symm
    · exact Array.toList_push
  | store offer =>
    rw [Operation.perform, store, Operation.lines, List.append_nil]
    cases offer.accept <;> rfl

/-- Behind a history the code has grown by the lines of its operations. -/
theorem code_behind (history : List Operation) (builder : Builder) :
    (builder.behind history).code.toList =
      builder.code.toList ++ history.flatMap Operation.lines := by
  induction history generalizing builder with
  | nil => exact (List.append_nil _).symm
  | cons operation rest ih =>
    have hrest := ih (operation.perform builder)
    rw [code_perform, List.append_assoc] at hrest
    exact hrest

@[simp] theorem data_move (instruction : Move) (builder : Builder) :
    (builder.move instruction).2.data = builder.data := by
  unfold move
  cases instruction.text <;> rfl

theorem data_perform {constants : List Constant} (operation : Operation)
    (h : builder.data.toList = recordsOf constants) :
    (operation.perform builder).data.toList = recordsOf (constants ++ operation.constants) := by
  cases operation with
  | store offer =>
    rw [Operation.perform, store, Operation.constants]
    cases offer.accept with
    | ok constant =>
      have hlabel : builder.nextLabel = recordLabel constants.length := by
        rw [nextLabel, ← Array.length_toList, h, length_recordsOf, recordLabel]
      change (builder.data.push ⟨builder.nextLabel, constant⟩).toList = _
      rw [Array.toList_push, h, hlabel]
      exact (recordsOf_concat constants constant).symm
    | error error => exact h.trans (congrArg recordsOf (List.append_nil constants).symm)
  | move instruction =>
    change (builder.move instruction).2.data.toList = recordsOf (constants ++ [])
    rw [data_move, List.append_nil, h]
  | _ => exact h.trans (congrArg recordsOf (List.append_nil constants).symm)

/-- Behind a history the data have grown by the constants that were accepted. -/
theorem data_behind {constants : List Constant} (history : List Operation)
    (h : builder.data.toList = recordsOf constants) :
    (builder.behind history).data.toList =
      recordsOf (constants ++ history.flatMap Operation.constants) := by
  induction history generalizing builder constants with
  | nil => exact h.trans (congrArg recordsOf (List.append_nil constants).symm)
  | cons operation rest ih =>
    have hrest := ih (data_perform operation h)
    rw [List.append_assoc] at hrest
    exact hrest

theorem code_behind_empty (history : List Operation) :
    (empty.behind history).code.toList = history.flatMap Operation.lines :=
  code_behind history empty

theorem data_behind_empty (history : List Operation) :
    (empty.behind history).data.toList = recordsOf (history.flatMap Operation.constants) :=
  @data_behind empty [] history rfl

end Builder

/-- The constants that can be written: a number must not be too long, a character has to be a text
of one code point, and only an integer may lack its value. -/
def Constant.Writable : Constant → Prop
  | .literal (.integer value) => Numeral.isTooLong value = false
  | .literal (.character text) => text.toList.length = 1
  | .literal _ => True
  | .unset kind => kind = .integer

/-- A constant has a directive just if it can be written. -/
theorem Constant.exists_directive_iff (constant : Constant) :
    (∃ directive, constant.directive = .ok directive) ↔ constant.Writable := by
  cases constant with
  | literal value =>
    cases value with
    | integer value =>
      rw [directive, Writable, ← Numeral.exists_decimal_iff]
      rcases Numeral.decimal value with fault | number
      · constructor <;> rintro ⟨_, ⟨⟩⟩
      · exact ⟨fun _ => ⟨_, rfl⟩, fun _ => ⟨_, rfl⟩⟩
    | float _ | boolean _ => exact ⟨fun _ => trivial, fun _ => ⟨_, rfl⟩⟩
    | character text =>
      rcases hchars : text.toList with _ | ⟨c, _ | ⟨_, _⟩⟩ <;>
        simp [directive, Writable, hchars, pure, Except.pure]
  | unset kind =>
    cases kind with
    | integer => exact ⟨fun _ => rfl, fun _ => ⟨_, rfl⟩⟩
    | float | boolean | character => simp [directive, Writable]

/-- Records and the lines in which they are written, two for each record: its label, then the
directive behind four blanks. -/
inductive Written : List Record → List String → Prop
  | nil : Written [] []
  | cons {record : Record} {directive : String} {data : List Record} {lines : List String} :
      record.constant.directive = .ok directive → Written data lines →
      Written (record :: data) ((record.label ++ ":") :: ("    " ++ directive) :: lines)

theorem Record.text_eq (record : Record) :
    record.text = record.constant.directive.map fun directive =>
      textOfLines [record.label ++ ":", "    " ++ directive] := by
  rw [text, Record.directive]
  rcases record.constant.directive with fault | directive
  · rfl
  · have hseparator : ":\n    " = ":" ++ ("\n" ++ "    ") := rfl
    have hempty : textOfLines [] = "" := rfl
    simp only [bind, Except.bind, pure, Except.pure, Except.map, textOfLines_cons, hseparator,
      hempty, String.append_assoc, String.append_empty]

namespace Written

variable {data : List Record} {lines : List String}

/-- The texts of records are those of their lines. -/
theorem exists_texts (h : Written data lines) :
    ∃ texts, data.mapM Record.text = .ok texts ∧ String.join texts = textOfLines lines := by
  induction h with
  | nil => exact ⟨[], rfl, rfl⟩
  | @cons record directive data lines hdirective _ ih =>
    obtain ⟨texts, htexts, hjoin⟩ := ih
    refine ⟨textOfLines [record.label ++ ":", "    " ++ directive] :: texts, ?_, ?_⟩
    · rw [List.mapM_cons, Record.text_eq, hdirective, htexts]
      rfl
    · rw [String.join_cons, hjoin, ← textOfLines_append]
      rfl

/-- Records that have texts have lines. -/
theorem exists_lines {texts : List String} (h : data.mapM Record.text = .ok texts) :
    ∃ lines, Written data lines ∧ String.join texts = textOfLines lines := by
  induction data generalizing texts with
  | nil =>
    cases h
    exact ⟨[], .nil, rfl⟩
  | cons record data ih =>
    rw [List.mapM_cons, Record.text_eq] at h
    rcases hdirective : record.constant.directive with fault | directive
    · rw [hdirective] at h
      cases h
    · rcases hothers : data.mapM Record.text with fault | others
      · rw [hdirective, hothers] at h
        cases h
      · rw [hdirective, hothers] at h
        cases h
        obtain ⟨lines, hlines, hjoin⟩ := ih hothers
        refine ⟨_, .cons hdirective hlines, ?_⟩
        rw [String.join_cons, hjoin, ← textOfLines_append]
        rfl

/-- Records can be written just if each of their constants can. -/
theorem exists_iff : (∃ lines, Written data lines) ↔ ∀ record ∈ data, record.constant.Writable := by
  induction data with
  | nil => exact ⟨fun _ => nofun, fun _ => ⟨[], .nil⟩⟩
  | cons record data ih =>
    rw [List.forall_mem_cons, ← ih, ← Constant.exists_directive_iff]
    constructor
    · rintro ⟨_, _ | ⟨hdirective, hlines⟩⟩
      exact ⟨⟨_, hdirective⟩, _, hlines⟩
    · rintro ⟨⟨directive, hdirective⟩, lines, hlines⟩
      exact ⟨_, .cons hdirective hlines⟩

end Written

namespace Builder

variable {builder : Builder} {text : String}

/-- The text of a builder is the text of its code lines in their columns and of the lines of its
records. -/
theorem build_eq_ok_iff :
    builder.build = .ok text ↔ builder.excess = 0 ∧ ∃ lines, Written builder.data.toList lines ∧
      text = textOfLines (builder.code.toList.map formatLine ++ lines) := by
  have hcode : String.join (builder.code.toList.map (formatLine · ++ "\n")) =
      textOfLines (builder.code.toList.map formatLine) := by
    rw [textOfLines, List.map_map]
    rfl
  constructor
  · intro h
    by_cases hexcess : builder.excess = 0
    · rw [build_of_excess_eq_zero hexcess] at h
      rcases htexts : builder.data.toList.mapM Record.text with fault | texts
      · rw [htexts] at h
        cases h
      · rw [htexts] at h
        have htext : String.join (builder.code.toList.map (formatLine · ++ "\n") ++ texts) = text :=
          Except.ok.inj h
        obtain ⟨lines, hlines, hjoin⟩ := Written.exists_lines htexts
        refine ⟨hexcess, lines, hlines, ?_⟩
        rw [← htext, String.join_append, hcode, hjoin, textOfLines_append]
    · rw [build_of_excess_ne_zero hexcess] at h
      cases h
  · rintro ⟨hexcess, lines, hlines, rfl⟩
    obtain ⟨texts, htexts, hjoin⟩ := hlines.exists_texts
    rw [build_of_excess_eq_zero hexcess, htexts, textOfLines_append, ← hcode, ← hjoin,
      ← String.join_append]
    rfl

/-- There is a text just if no function is left open and every constant can be written. -/
theorem exists_build_iff :
    (∃ text, builder.build = .ok text) ↔
      builder.excess = 0 ∧ ∀ record ∈ builder.data.toList, record.constant.Writable := by
  rw [← Written.exists_iff]
  constructor
  · rintro ⟨text, htext⟩
    obtain ⟨hexcess, lines, hlines, _⟩ := build_eq_ok_iff.mp htext
    exact ⟨hexcess, lines, hlines⟩
  · rintro ⟨hexcess, lines, hlines⟩
    exact ⟨_, build_eq_ok_iff.mpr ⟨hexcess, lines, hlines, rfl⟩⟩

end Builder

end SmallScheme.Assembly
