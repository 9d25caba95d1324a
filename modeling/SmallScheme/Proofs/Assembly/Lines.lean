import Mathlib.Data.List.Basic
import SmallScheme.Assembly.Builder

/-!
# Assembly as lines

A builder writes lines, each of which is ended by a line feed. Lines without line feeds of their own
can be told from the text that they make (`linesOfText_textOfLines`). Indenting keeps the lines
apart too (`formatLine_injective`), and what is written behind the code begins with fewer blanks
than any code line, so that no code line is the directive of a record (`formatLine_ne_indented`).
-/

namespace SmallScheme.Assembly

/-- Pieces of text in front of the first of their separators can be told from the whole. -/
theorem eq_of_append_cons_eq {front front' back back' : List Char} {separator : Char}
    (hfront : separator ∉ front) (hfront' : separator ∉ front')
    (h : front ++ separator :: back = front' ++ separator :: back') :
    front = front' ∧ back = back' := by
  have hpieces := congrArg (List.splitOn separator) h
  rw [List.splitOn_append_cons_self_of_not_mem hfront,
    List.splitOn_append_cons_self_of_not_mem hfront'] at hpieces
  obtain rfl := (List.cons.inj hpieces).1
  exact ⟨rfl, (List.cons.inj (List.append_cancel_left h)).2⟩

theorem notMem_append_iff {front back : String} {c : Char} :
    c ∉ (front ++ back).toList ↔ c ∉ front.toList ∧ c ∉ back.toList := by
  rw [String.toList_append, List.mem_append, not_or]

/-- Text without a line feed. -/
def IsLine (line : String) : Prop :=
  '\n' ∉ line.toList

theorem isLine_append_iff {front back : String} :
    IsLine (front ++ back) ↔ IsLine front ∧ IsLine back :=
  notMem_append_iff

/-- Lines one below the other, each ended by a line feed. -/
def textOfLines (lines : List String) : String :=
  String.join (lines.map (· ++ "\n"))

/-- The pieces of a text that line feeds end. -/
def linesOfText (text : String) : List String :=
  (text.toList.splitOn '\n').dropLast.map String.ofList

theorem textOfLines_cons (line : String) (lines : List String) :
    textOfLines (line :: lines) = line ++ "\n" ++ textOfLines lines := by
  rw [textOfLines, List.map_cons, String.join_cons, textOfLines]

theorem textOfLines_append (lines others : List String) :
    textOfLines (lines ++ others) = textOfLines lines ++ textOfLines others := by
  rw [textOfLines, List.map_append, String.join_append, textOfLines, textOfLines]

/-- Lines can be read back from their text. -/
theorem linesOfText_textOfLines {lines : List String} (h : ∀ line ∈ lines, IsLine line) :
    linesOfText (textOfLines lines) = lines := by
  induction lines with
  | nil => rfl
  | cons line lines ih =>
    obtain ⟨hline, hlines⟩ := List.forall_mem_cons.mp h
    have hfeed : "\n".toList = ['\n'] := rfl
    have hsplit : (textOfLines (line :: lines)).toList.splitOn '\n' =
        line.toList :: (textOfLines lines).toList.splitOn '\n' := by
      rw [textOfLines_cons, String.toList_append, String.toList_append, hfeed, List.append_assoc,
        List.singleton_append, List.splitOn_append_cons_self_of_not_mem hline]
    rw [linesOfText, hsplit, List.dropLast_cons_of_ne_nil (List.splitOn_ne_nil _ _), List.map_cons,
      String.ofList_toList]
    exact congrArg _ (ih hlines)

theorem textOfLines_inj {lines lines' : List String} (h : ∀ line ∈ lines, IsLine line)
    (h' : ∀ line ∈ lines', IsLine line) :
    textOfLines lines = textOfLines lines' ↔ lines = lines' := by
  refine ⟨fun heq => ?_, fun heq => heq ▸ rfl⟩
  rw [← linesOfText_textOfLines h, heq, linesOfText_textOfLines h']

namespace Builder

variable {line line' : String}

theorem isUnindented_eq_false_iff :
    isUnindented line = false ↔
      line.toList.head? ≠ some '.' ∧ line.toList.getLast? ≠ some ':' := by
  simp [isUnindented]

/-- A line that begins with a point stands in the first column. -/
theorem formatLine_of_head (h : line.toList.head? = some '.') : formatLine line = line := by
  rw [formatLine, isUnindented, h]
  rfl

/-- A line that ends with a colon stands in the first column. -/
theorem formatLine_of_getLast (h : line.toList.getLast? = some ':') : formatLine line = line := by
  rw [formatLine, isUnindented, h, beq_self_eq_true, Bool.or_true, if_pos rfl]

/-- Any other line is indented. -/
theorem formatLine_of_indented (h : isUnindented line = false) :
    formatLine line = "        " ++ line := by
  rw [formatLine, h, if_neg Bool.false_ne_true]

/-- Blanks in front do not let a line end with a colon. -/
theorem getLast?_blanks_append {blanks : String} (h : blanks.toList.getLast? = some ' ')
    (line : String) :
    (blanks ++ line).toList.getLast? = some ':' ↔ line.toList.getLast? = some ':' := by
  rw [String.toList_append, List.getLast?_append, h]
  rcases line.toList.getLast? with _ | c <;> simp

/-- Indenting does not change how a line ends. -/
theorem getLast?_formatLine (line : String) :
    (formatLine line).toList.getLast? = some ':' ↔ line.toList.getLast? = some ':' := by
  rcases hcolumn : isUnindented line with _ | _
  · rw [formatLine_of_indented hcolumn]
    exact getLast?_blanks_append rfl line
  · rw [formatLine, if_pos hcolumn]

/-- A line in its column stands in the first one just if the line belongs there. -/
theorem isUnindented_formatLine (line : String) :
    isUnindented (formatLine line) = isUnindented line := by
  rcases hcolumn : isUnindented line with _ | _
  · have hlast := (isUnindented_eq_false_iff.mp hcolumn).2
    refine isUnindented_eq_false_iff.mpr ⟨?_, mt (getLast?_formatLine line).mp hlast⟩
    rw [formatLine_of_indented hcolumn]
    simp
  · rw [formatLine, if_pos hcolumn, hcolumn]

theorem isLine_formatLine (h : IsLine line) : IsLine (formatLine line) := by
  rw [formatLine]
  split
  · exact h
  · exact isLine_append_iff.mpr ⟨by simp [IsLine], h⟩

/-- A code line can be told from the line that is written for it. -/
theorem formatLine_injective : Function.Injective formatLine := by
  intro line line' h
  have hcolumn := congrArg isUnindented h
  rw [isUnindented_formatLine, isUnindented_formatLine] at hcolumn
  rcases hcolumn' : isUnindented line' with _ | _
  · rw [hcolumn'] at hcolumn
    rw [formatLine_of_indented hcolumn, formatLine_of_indented hcolumn'] at h
    exact (String.append_right_inj _).mp h
  · rwa [formatLine, formatLine, hcolumn, hcolumn', if_pos rfl, if_pos rfl] at h

/-- A code line begins in the first column or behind eight blanks, unless it ends with a colon. So
it is no directive behind four blanks. -/
theorem formatLine_ne_indented {directive : String} (hhead : directive.toList.head? = some '.')
    (hlast : directive.toList.getLast? ≠ some ':') (line : String) :
    formatLine line ≠ "    " ++ directive := by
  intro h
  have hcolumn : isUnindented line = false := by
    rw [← isUnindented_formatLine, h]
    exact isUnindented_eq_false_iff.mpr
      ⟨by simp, mt (getLast?_blanks_append rfl directive).mp hlast⟩
  have hblanks : "        " = "    " ++ "    " := rfl
  rw [formatLine_of_indented hcolumn, hblanks, String.append_assoc, String.append_right_inj] at h
  rw [← h, String.toList_append] at hhead
  exact absurd hhead (by simp)

end Builder

end SmallScheme.Assembly
