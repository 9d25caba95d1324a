import SmallScheme.Compiler
import SmallScheme.Proofs.Assembly.Lines
import SmallScheme.Proofs.Assembly.Numbers

/-!
# The functions of an assembly

The compiler writes one function for each integer, numbered in the order of the text. Five code
lines are a function, and its text is the same but for the number of the function and the integer,
so the integers can be told from the text of all functions (`functionsText_injective`).
-/

namespace SmallScheme.Compiler

open Assembly

/-- The name of the function of a number. -/
def functionName (index : Nat) : String :=
  functionStem ++ toString index

/-- The code lines of a function that returns an integer. -/
def functionLines (index : Nat) (value : Int) : List String :=
  [".global " ++ functionName index, ".type " ++ functionName index ++ ", @function",
    functionName index ++ ":", "movq $" ++ toString value ++ ", %rax", "ret"]

/-- The text of a function that returns an integer: five lines, of which the two instructions are
indented. -/
def functionText (index : Nat) (value : Int) : String :=
  String.join ([".global " ++ functionName index, ".type " ++ functionName index ++ ", @function",
    functionName index ++ ":", "        movq $" ++ toString value ++ ", %rax",
    "        ret"].map (· ++ "\n"))

/-- The code lines of functions that return integers, numbered from a number on. -/
def functionsLines (start : Nat) (values : List Int) : List String :=
  (values.zipIdx start).flatMap fun (value, index) => functionLines index value

/-- The text of functions that return integers, numbered from a number on. -/
def functionsText (start : Nat) (values : List Int) : String :=
  String.join ((values.zipIdx start).map fun (value, index) => functionText index value)

theorem functionsLines_cons (start : Nat) (value : Int) (values : List Int) :
    functionsLines start (value :: values) =
      functionLines start value ++ functionsLines (start + 1) values :=
  rfl

theorem functionsText_cons (start : Nat) (value : Int) (values : List Int) :
    functionsText start (value :: values) =
      functionText start value ++ functionsText (start + 1) values := by
  rw [functionsText, List.zipIdx_cons, List.map_cons, String.join_cons]
  rfl

theorem formatLine_move (value : Int) :
    Builder.formatLine ("movq $" ++ toString value ++ ", %rax") =
      "        movq $" ++ toString value ++ ", %rax" := by
  have hcolumn : Builder.isUnindented ("movq $" ++ toString value ++ ", %rax") = false :=
    Builder.isUnindented_eq_false_iff.mpr
      ⟨by simp, by simp [List.getLast?_cons, List.getLast?_append]⟩
  have hindented : "        movq $" = "        " ++ "movq $" := by cbv
  rw [Builder.formatLine_of_indented hcolumn, hindented]
  simp only [String.append_assoc]

/-- The code lines of a function are written as its text. -/
theorem join_functionLines (index : Nat) (value : Int) :
    String.join ((functionLines index value).map (Builder.formatLine · ++ "\n")) =
      functionText index value := by
  have hglobal : (".global " ++ functionName index).toList.head? = some '.' := by simp
  have htype : (".type " ++ functionName index ++ ", @function").toList.head? = some '.' := by simp
  have hlabel : (functionName index ++ ":").toList.getLast? = some ':' := by simp
  have hreturn : Builder.formatLine "ret" = "        ret" := by cbv
  simp only [functionLines, functionText, List.map_cons, List.map_nil,
    Builder.formatLine_of_head hglobal, Builder.formatLine_of_head htype,
    Builder.formatLine_of_getLast hlabel, formatLine_move, hreturn]

/-- The code lines of functions are written as their texts, one below the other. -/
theorem join_functionsLines (start : Nat) (values : List Int) :
    String.join ((functionsLines start values).map (Builder.formatLine · ++ "\n")) =
      functionsText start values := by
  induction values generalizing start with
  | nil => rfl
  | cons value values ih =>
    rw [functionsLines_cons, functionsText_cons, List.map_append, String.join_append,
      join_functionLines, ih]

/-- The text of a function goes on with a comma behind the integer, and all of it but the integer
depends on the number only. -/
theorem exists_functionText (index : Nat) :
    ∃ front back, ∀ value, (functionText index value).toList =
      front ++ ((toString value).toList ++ ',' :: back) := by
  refine ⟨(".global " ++ functionName index ++ "\n" ++ (".type " ++ functionName index ++
      ", @function") ++ "\n" ++ (functionName index ++ ":") ++ "\n" ++ "        movq $").toList,
    (" %rax" ++ "\n" ++ "        ret" ++ "\n").toList, fun value => ?_⟩
  have hregister : ", %rax".toList = ',' :: " %rax".toList := by simp
  simp only [functionText, List.map_cons, List.map_nil, String.join_cons, String.join_nil,
    String.toList_append, List.append_assoc, hregister, List.cons_append]
  simp

/-- A function tells the integer that it returns, whatever follows it. -/
theorem functionText_append_inj {index : Nat} {value value' : Int} {rest rest' : String}
    (h : functionText index value ++ rest = functionText index value' ++ rest') :
    value = value' ∧ rest = rest' := by
  obtain ⟨front, back, htext⟩ := exists_functionText index
  have hlists := congrArg String.toList h
  simp only [String.toList_append, htext, List.append_assoc, List.cons_append] at hlists
  have hcomma (value : Int) : ',' ∉ (toString value).toList := notMem_toString rfl (by decide) value
  -- Both decimals end at the first comma.
  obtain ⟨hvalue, hback⟩ := eq_of_append_cons_eq (hcomma value) (hcomma value')
    (List.append_cancel_left hlists)
  exact ⟨toString_inj.mp (String.toList_injective hvalue),
    String.toList_injective (List.append_cancel_left hback)⟩

theorem functionText_append_ne_empty (index : Nat) (value : Int) (rest : String) :
    functionText index value ++ rest ≠ "" := by
  obtain ⟨front, back, htext⟩ := exists_functionText index
  intro h
  have hlists := congrArg String.toList h
  simp [String.toList_append, htext] at hlists

/-- The integers can be told from the text of their functions. -/
theorem functionsText_injective {start : Nat} {values values' : List Int}
    (h : functionsText start values = functionsText start values') : values = values' := by
  induction values generalizing start values' with
  | nil =>
    cases values' with
    | nil => rfl
    | cons value' values' =>
      rw [functionsText_cons] at h
      exact absurd h.symm (functionText_append_ne_empty _ _ _)
  | cons value values ih =>
    cases values' with
    | nil =>
      rw [functionsText_cons] at h
      exact absurd h (functionText_append_ne_empty _ _ _)
    | cons value' values' =>
      rw [functionsText_cons, functionsText_cons] at h
      obtain ⟨rfl, hrest⟩ := functionText_append_inj h
      rw [ih hrest]

end SmallScheme.Compiler
