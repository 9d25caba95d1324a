import SmallScheme.Proofs.Data.Parts
import SmallScheme.Proofs.Lexer.Spelling

/-!
# Data that can be written

Expressions are built from booleans, integers, symbols and lists. Not all of these can be written:
a numeral has no sign and fits into a word, and the name of a symbol must not be cut into other
tokens. A datum that contains none of the others is readable.
-/

namespace SmallScheme

/-- The name that a quotation mark stands for can be written. -/
theorem isAtomName_quote : IsAtomName "quote" :=
  isAtomName_of_all ⟨'q', rfl, by decide⟩ rfl

namespace Datum

/-- Being built from booleans, integers, symbols and lists, as expressions are. -/
inductive Expressible : Datum → Prop
  | boolean (value : Bool) : Expressible (.boolean value)
  | integer (value : Int) : Expressible (.integer value)
  | symbol (name : Name) : Expressible (.symbol name)
  | list {items : List Datum} : (∀ item ∈ items, Expressible item) → Expressible (.list items)

/-- Containing no integers and no symbols but those that a program can write. -/
structure Readable (datum : Datum) : Prop where
  integers : ∀ value, Inside (.integer value) datum → 0 ≤ value ∧ value ≤ Numeral.greatest
  names : ∀ name, Inside (.symbol name) datum → IsAtomName name

/-- The members of a list are searched on their own. -/
theorem readable_list_iff {items : List Datum} :
    (Datum.list items).Readable ↔ ∀ item ∈ items, item.Readable := by
  constructor
  · intro h item hitem
    exact ⟨fun value hvalue => h.integers value (.member hitem hvalue),
      fun name hname => h.names name (.member hitem hname)⟩
  · intro h
    constructor
    · intro value hvalue
      cases hvalue with
      | member hitem hvalue => exact (h _ hitem).integers value hvalue
    · intro name hname
      cases hname with
      | member hitem hname => exact (h _ hitem).names name hname

theorem readable_boolean (value : Bool) : (Datum.boolean value).Readable := by
  constructor
  · rintro _ ⟨⟩
  · rintro _ ⟨⟩

theorem readable_integer {value : Int} (hpos : 0 ≤ value) (hgreatest : value ≤ Numeral.greatest) :
    (Datum.integer value).Readable := by
  constructor
  · rintro _ ⟨⟩
    exact ⟨hpos, hgreatest⟩
  · rintro _ ⟨⟩

theorem readable_symbol {name : Name} (h : IsAtomName name) : (Datum.symbol name).Readable := by
  constructor
  · rintro _ ⟨⟩
  · rintro _ ⟨⟩
    exact h

/-- No program writes a procedure. -/
theorem Expressible.procedureFree {datum : Datum} (h : datum.Expressible) :
    datum.ProcedureFree := by
  induction h with
  | list _ ih => exact procedureFree_list_iff.mpr ih
  | boolean | integer | symbol => exact fun _ _ _ => nofun

theorem Expressible.quoted {datum : Datum} (h : datum.Expressible) : datum.quoted.Expressible := by
  refine .list fun item hitem => ?_
  simp only [List.mem_cons, List.not_mem_nil, or_false] at hitem
  rcases hitem with rfl | rfl
  · exact .symbol "quote"
  · exact h

theorem Readable.quoted {datum : Datum} (h : datum.Readable) : datum.quoted.Readable := by
  refine readable_list_iff.mpr fun item hitem => ?_
  simp only [List.mem_cons, List.not_mem_nil, or_false] at hitem
  rcases hitem with rfl | rfl
  · exact readable_symbol isAtomName_quote
  · exact h

end Datum

end SmallScheme
