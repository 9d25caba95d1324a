import SmallScheme.Proofs.Data.Obstacles

/-!
# Errors that programs come to

Some errors are no program's fault. They say that the last frame was left, that something other than
a name was bound, or that a foreign value was evaluated, and only a host can bring these about. The
others are expected if they can be worded, that is, if no number that they show is too long.
-/

namespace SmallScheme

/-- Being an error that a program can bring about. -/
def Error.OfProgram : Error → Prop
  | .rootFrame | .notSymbol _ | .notEvaluable _ => False
  | _ => True

/-- Being an error that programs can come to, and can be told about. -/
structure Error.Expected (error : Error) : Prop where
  ofProgram : error.OfProgram
  writable : error.Writable

/-- Being an error of a program that shows nothing but some data and rows of them. -/
structure Error.About (data : Datum → Prop) (error : Error) : Prop where
  ofProgram : error.OfProgram
  described : ∀ datum ∈ error.described,
    data datum ∨ ∃ items, datum = .list items ∧ ∀ item ∈ items, data item

/-- Being an error that programs come to, as opposed to a fault of the host. -/
def Fault.Expected (fault : Fault) : Prop :=
  ∃ error, fault = .reported error ∧ error.Expected

namespace Error

variable {error : Error} {data : Datum → Prop}

/-- Expected errors are none of a misused environment, and none of an expression that cannot be
evaluated. -/
theorem Expected.internal (h : error.Expected) :
    error.kind ≠ .environment ∧ ∀ expression, error ≠ .notEvaluable expression := by
  have hprogram := h.ofProgram
  constructor
  · intro hkind
    cases error <;> first | exact hprogram | cases hkind
  · rintro expression rfl
    exact hprogram

/-- An error that shows no data is expected if a program can bring it about. -/
theorem Expected.of_described (hprogram : error.OfProgram) (h : error.described = []) :
    error.Expected :=
  ⟨hprogram, writable_of_described h⟩

/-- An error that shows no data is about any. -/
theorem About.of_described (hprogram : error.OfProgram) (h : error.described = []) :
    error.About data := by
  refine ⟨hprogram, fun datum hmem => ?_⟩
  rw [h] at hmem
  exact absurd hmem List.not_mem_nil

/-- An error that shows one datum is about data of its kind. -/
theorem About.of_value {datum : Datum} (hprogram : error.OfProgram)
    (h : error.described = [datum]) (hdatum : data datum) : error.About data := by
  refine ⟨hprogram, fun other hmem => ?_⟩
  rw [h, List.mem_singleton] at hmem
  exact Or.inl (hmem ▸ hdatum)

/-- Errors about data that show no long number are expected. -/
theorem About.expected (h : error.About data) (hshort : ∀ datum, data datum → datum.Short) :
    error.Expected := by
  refine ⟨h.ofProgram, fun datum hmem => ?_⟩
  rcases h.described datum hmem with hdatum | ⟨items, rfl, hitems⟩
  · exact hshort datum hdatum
  · exact Datum.short_list_iff.mpr fun item hitem => hshort item (hitems item hitem)

end Error

end SmallScheme
