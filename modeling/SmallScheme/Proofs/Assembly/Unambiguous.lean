import SmallScheme.Proofs.Assembly.Contents
import SmallScheme.Proofs.Assembly.Numbers

/-!
# Builders and their texts

A directive tells the constant that it stores (`eq_of_directive_eq`). Behind the code stand pairs of
a label and a directive, and a directive is no code line, so the first directive shows where the
code ends. Hence builders whose code lines have no line feeds have the same text only if they hold
the same code and the same data (`texts_tell_builders`).
-/

namespace SmallScheme.Assembly

/-- The sizes in which constants are stored. -/
inductive Width where
  | quadword
  | byte
  | long

/-- The word that stores a constant of a size, with the blanks behind it. -/
def Width.directive : Width → String
  | .quadword => ".quad   "
  | .byte => ".byte   "
  | .long => ".long "

/-- A directive tells its size and what it stores. -/
theorem Width.directive_append_inj {width width' : Width} {operand operand' : String}
    (h : width.directive ++ operand = width'.directive ++ operand') :
    width = width' ∧ operand = operand' := by
  have hwidth : width = width' := by
    have hlists := congrArg String.toList h
    cases width <;> cases width' <;> first | rfl | simp [directive] at hlists
  subst hwidth
  exact ⟨rfl, (String.append_right_inj _).mp h⟩

namespace Constant

/-- The size of a constant, and how its value is written. -/
inductive Stored : Constant → Width → String → Prop
  | integer (value : Int) : Stored (.literal (.integer value)) .quadword (toString value)
  | float (value : Double) :
      Stored (.literal (.float value)) .quadword (hexadecimal value.bits.toNat)
  | boolean (value : Bool) :
      Stored (.literal (.boolean value)) .byte (if value then "1" else "0")
  | character (c : Char) :
      Stored (.literal (.character (String.singleton c))) .long (toString (c.toNat : Int))
  | unset : Stored (.unset .integer) .quadword "None"

variable {constant other : Constant} {directive : String}

theorem exists_stored (h : constant.directive = .ok directive) :
    ∃ width operand, Stored constant width operand ∧ directive = width.directive ++ operand := by
  cases constant with
  | literal value =>
    cases value with
    | integer value =>
      have hshort : Numeral.isTooLong value = false := (exists_directive_iff _).mp ⟨directive, h⟩
      rw [Constant.directive, Numeral.decimal_eq_ok_iff.mpr ⟨hshort, rfl⟩] at h
      exact ⟨_, _, .integer value, (Except.ok.inj h).symm⟩
    | float value => exact ⟨_, _, .float value, (Except.ok.inj h).symm⟩
    | boolean value => exact ⟨_, _, .boolean value, (Except.ok.inj h).symm⟩
    | character text =>
      obtain ⟨c, hc⟩ := List.length_eq_one_iff.mp ((exists_directive_iff _).mp ⟨directive, h⟩)
      simp only [Constant.directive, hc] at h
      obtain rfl : text = String.singleton c := String.toList_injective (by simp [hc])
      exact ⟨_, _, .character c, (Except.ok.inj h).symm⟩
  | unset kind =>
    obtain rfl : kind = .integer := (exists_directive_iff _).mp ⟨directive, h⟩
    exact ⟨_, _, .unset, (Except.ok.inj h).symm⟩

/-- What is stored tells the constant: a quadword is a decimal or a hexadecimal number, or no number
at all. -/
theorem Stored.unique {width : Width} {operand operand' : String}
    (h : Stored constant width operand) (h' : Stored other width operand')
    (heq : operand = operand') : constant = other := by
  have hnone (value : Int) : toString value ≠ "None" := fun h =>
    notMem_toString (c := 'N') rfl (by decide) value (by simp [h])
  have hnone' (n : Nat) : hexadecimal n ≠ "None" := fun h => by
    have hlists := congrArg String.toList h
    simp [toList_hexadecimal] at hlists
  cases h with
  | integer value =>
    cases h' with
    | integer value' => rw [toString_inj.mp heq]
    | float value' => exact absurd heq (toString_ne_hexadecimal value _)
    | unset => exact absurd heq (hnone value)
  | float value =>
    cases h' with
    | integer value' => exact absurd heq.symm (toString_ne_hexadecimal value' _)
    | float value' =>
      obtain ⟨bits⟩ := value
      obtain ⟨bits'⟩ := value'
      obtain rfl : bits = bits' := UInt64.toNat_inj.mp (hexadecimal_inj.mp heq)
      rfl
    | unset => exact absurd heq (hnone' _)
  | boolean value =>
    cases h' with
    | boolean value' => cases value <;> cases value' <;> first | rfl | simp at heq
  | character c =>
    cases h' with
    | character c' => rw [Char.toNat_inj.mp (Int.ofNat_inj.mp (toString_inj.mp heq))]
  | unset =>
    cases h' with
    | integer value' => exact absurd heq.symm (hnone value')
    | float value' => exact absurd heq.symm (hnone' _)
    | unset => rfl

/-- A directive tells the constant that it stores. -/
theorem eq_of_directive_eq (h : constant.directive = .ok directive)
    (h' : other.directive = .ok directive) : constant = other := by
  obtain ⟨width, operand, hstored, hdirective⟩ := exists_stored h
  obtain ⟨width', operand', hstored', hdirective'⟩ := exists_stored h'
  obtain ⟨rfl, hoperand⟩ := Width.directive_append_inj (hdirective.symm.trans hdirective')
  exact hstored.unique hstored' hoperand

/-- A directive begins with a point, as code lines in the first column do. -/
theorem head?_of_directive (h : constant.directive = .ok directive) :
    directive.toList.head? = some '.' := by
  obtain ⟨width, operand, _, rfl⟩ := exists_stored h
  cases width <;> simp [Width.directive]

/-- A directive has no colon and no line feed. -/
theorem notMem_of_directive (h : constant.directive = .ok directive) {c : Char}
    (hc : c = ':' ∨ c = '\n') : c ∉ directive.toList := by
  obtain ⟨width, operand, hstored, rfl⟩ := exists_stored h
  have hwidth : c ∉ width.directive.toList := by
    cases width <;> rcases hc with rfl | rfl <;> simp [Width.directive]
  have hnumber (value : Int) : c ∉ (toString value).toList := by
    rcases hc with rfl | rfl <;> exact notMem_toString rfl (by decide) value
  have hoperand : c ∉ operand.toList := by
    cases hstored with
    | integer value => exact hnumber value
    | float value => rcases hc with rfl | rfl <;> exact notMem_hexadecimal rfl _
    | boolean value => rcases hc with rfl | rfl <;> cases value <;> simp
    | character c' => exact hnumber c'.toNat
    | unset => rcases hc with rfl | rfl <;> simp
  exact notMem_append_iff.mpr ⟨hwidth, hoperand⟩

/-- The second line of a record does not begin a record. -/
theorem directive_ne_label (h : constant.directive = .ok directive) (label : String) :
    "    " ++ directive ≠ label ++ ":" := by
  intro heq
  have hmem : ':' ∈ ("    " ++ directive).toList := by simp [heq]
  exact absurd hmem (by simp [notMem_of_directive h (Or.inl rfl)])

end Constant

variable {code code' lines lines' : List String} {data data' : List Record}

/-- No code line is the directive of a record. -/
theorem Builder.formatLine_ne_directive {constant : Constant} {directive : String}
    (h : constant.directive = .ok directive) (line : String) :
    formatLine line ≠ "    " ++ directive := by
  refine formatLine_ne_indented (Constant.head?_of_directive h) (fun hlast => ?_) line
  exact Constant.notMem_of_directive h (Or.inl rfl) (List.mem_of_getLast? hlast)

namespace Written

/-- Records can be told from their lines. -/
theorem unique (h : Written data lines) (h' : Written data' lines) : data = data' := by
  induction h generalizing data' with
  | nil =>
    cases h'
    rfl
  | @cons record directive data lines hdirective _ ih =>
    generalize hlabel : record.label ++ ":" = line at h'
    generalize hstored : "    " ++ directive = line' at h'
    cases h' with
    | @cons record' directive' data' _ hdirective' hdata' =>
      obtain rfl := (String.append_right_inj _).mp hstored
      have hconstant := Constant.eq_of_directive_eq hdirective hdirective'
      have hlabel : record.label = record'.label := (String.append_left_inj _).mp hlabel
      obtain ⟨label, constant⟩ := record
      obtain ⟨label', constant'⟩ := record'
      obtain rfl : label = label' := hlabel
      obtain rfl : constant = constant' := hconstant
      rw [ih hdata']

/-- If records go on as other records do behind some code lines, there are no such lines: the second
line of a record is no code line, and it does not begin a record. -/
theorem code_eq_nil (h : Written data lines) (h' : Written data' lines')
    (heq : lines = code.map Builder.formatLine ++ lines') : code = [] := by
  cases code with
  | nil => rfl
  | cons line code =>
    cases h with
    | nil => exact absurd heq.symm (List.cons_ne_nil _ _)
    | cons hdirective _ =>
      have hrest := (List.cons.inj heq).2
      cases code with
      | cons line' code =>
        exact absurd (List.cons.inj hrest).1.symm (Builder.formatLine_ne_directive hdirective line')
      | nil =>
        cases h' with
        | nil => exact absurd hrest (List.cons_ne_nil _ _)
        | cons _ _ =>
          exact absurd (List.cons.inj hrest).1 (Constant.directive_ne_label hdirective _)

/-- Code and data can be told from the lines in which they are written. -/
theorem code_data_unique (h : Written data lines) (h' : Written data' lines')
    (heq : code.map Builder.formatLine ++ lines = code'.map Builder.formatLine ++ lines') :
    code = code' ∧ data = data' := by
  have hboundary : code.map Builder.formatLine = code'.map Builder.formatLine := by
    rcases List.append_eq_append_iff.mp heq with ⟨more, hcode, hmore⟩ | ⟨more, hcode, hmore⟩
    · obtain ⟨front, back, rfl, hfront, rfl⟩ := List.map_eq_append_iff.mp hcode
      obtain rfl := code_eq_nil h h' hmore
      rw [hcode, List.map_nil, List.append_nil]
    · obtain ⟨front, back, rfl, hfront, rfl⟩ := List.map_eq_append_iff.mp hcode
      obtain rfl := code_eq_nil h' h hmore
      rw [hcode, List.map_nil, List.append_nil]
  rw [hboundary] at heq
  obtain rfl := List.append_cancel_left heq
  exact ⟨List.map_injective_iff.mpr Builder.formatLine_injective hboundary, unique h h'⟩

/-- The lines of records have no line feeds if their labels have none. -/
theorem isLine (h : Written data lines) (hlabels : ∀ record ∈ data, IsLine record.label) :
    ∀ line ∈ lines, IsLine line := by
  induction h with
  | nil => exact fun line hmem => absurd hmem List.not_mem_nil
  | @cons record directive data lines hdirective _ ih =>
    obtain ⟨hlabel, hlabels⟩ := List.forall_mem_cons.mp hlabels
    have hstored : IsLine directive := Constant.notMem_of_directive hdirective (Or.inr rfl)
    rw [List.forall_mem_cons, List.forall_mem_cons]
    exact ⟨isLine_append_iff.mpr ⟨hlabel, by simp [IsLine]⟩,
      isLine_append_iff.mpr ⟨by simp [IsLine], hstored⟩, ih hlabels⟩

end Written

namespace Builder

/-- The lines that are written have no line feeds if the code lines and the labels have none. -/
theorem isLine_of_written {builder : Builder} (hcode : ∀ line ∈ builder.code.toList, IsLine line)
    (hdata : ∀ record ∈ builder.data.toList, IsLine record.label)
    (h : Written builder.data.toList lines) :
    ∀ line ∈ builder.code.toList.map formatLine ++ lines, IsLine line := by
  rw [List.forall_mem_append, List.forall_mem_map]
  exact ⟨fun line hmem => isLine_formatLine (hcode line hmem), h.isLine hdata⟩

theorem isLine_label_behind (history : List Operation) :
    ∀ record ∈ (empty.behind history).data.toList, IsLine record.label := by
  intro record hmem
  rw [data_behind_empty] at hmem
  exact isLine_of_mem_recordsOf hmem

/-- A code line can be told from the line that is written for it, which is the directive of no
record. So builders whose code lines have no line feeds, but are arbitrary otherwise, have the same
text only if they hold the same code lines and the same records. -/
theorem texts_tell_builders :
    (∀ line line', formatLine line = formatLine line' → line = line') ∧
    (∀ line (constant : Constant) directive, constant.directive = .ok directive →
      formatLine line ≠ "    " ++ directive) ∧
    ∀ history history' : List Operation,
      let builder := empty.behind history
      let builder' := empty.behind history'
      (∀ line ∈ builder.code.toList, IsLine line) → (∀ line ∈ builder'.code.toList, IsLine line) →
      ∀ text, builder.build = .ok text → builder'.build = .ok text →
        builder.code = builder'.code ∧ builder.data = builder'.data := by
  refine ⟨fun line line' h => formatLine_injective h,
    fun line constant directive h => formatLine_ne_directive h line, ?_⟩
  intro history history' builder builder' hcode hcode' text htext htext'
  obtain ⟨_, lines, hwritten, htext⟩ := build_eq_ok_iff.mp htext
  obtain ⟨_, lines', hwritten', htext'⟩ := build_eq_ok_iff.mp htext'
  have hlines := (textOfLines_inj (isLine_of_written hcode (isLine_label_behind _) hwritten)
    (isLine_of_written hcode' (isLine_label_behind _) hwritten')).mp (htext.symm.trans htext')
  obtain ⟨hcodes, hdata⟩ := hwritten.code_data_unique hwritten' hlines
  exact ⟨Array.toList_inj.mp hcodes, Array.toList_inj.mp hdata⟩

/-- A function and the lines that it consists of have the same text; the line added in front of the
record is no label of a record. -/
theorem texts_tell_builders_function :
    let history : List Operation :=
      [.openFunction "f", .add "LC_0:", .leaveFunction,
        .store (.constant (.literal (.integer (-1))))]
    let history' : List Operation :=
      [.store (.constant (.literal (.integer (-1)))), .add ".global f", .add ".type f, @function",
        .add "f:", .add "LC_0:", .add "ret"]
    let text := ".global f\n.type f, @function\nf:\nLC_0:\n        ret\nLC_0:\n    .quad   -1\n"
    (∀ line ∈ (empty.behind history).code.toList, IsLine line) ∧
      (empty.behind history).build = .ok text ∧ (empty.behind history').build = .ok text ∧
      (empty.behind history).code = (empty.behind history').code := by
  intro history history' text
  have hcode : ∀ line ∈ (empty.behind history).code.toList, IsLine line := by
    simp [code_behind_empty, history, Operation.lines, openingLines, IsLine]
  have hcode' : ∀ line ∈ (empty.behind history').code.toList, IsLine line := by
    simp [code_behind_empty, history', Operation.lines, IsLine]
  have hbuild : (empty.behind history).build = .ok text := by with_unfolding_all rfl
  have hbuild' : (empty.behind history').build = .ok text := by with_unfolding_all rfl
  obtain ⟨_, _, htexts⟩ := texts_tell_builders
  exact ⟨hcode, hbuild, hbuild', (htexts history history' hcode hcode' text hbuild hbuild').1⟩

end Builder

end SmallScheme.Assembly
