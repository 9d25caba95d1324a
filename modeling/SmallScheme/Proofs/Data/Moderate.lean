import SmallScheme.Proofs.Data.Computed
import SmallScheme.Proofs.Data.Magnitudes
import SmallScheme.Proofs.Data.Obstacles

/-!
# Data with moderate numbers

A host may hand in numbers that are greater than any word. As long as they are moderate, data can be
described, and arithmetic on them comes to results that can be written. What programs write and
compute is moderate.
-/

namespace SmallScheme.Datum

/-- Having moderate numbers only, also in the bodies of procedures. -/
inductive Moderate : Datum → Prop
  | boolean (value : Bool) : Moderate (.boolean value)
  | integer {value : Int} : Numeral.Moderate value → Moderate (.integer value)
  | symbol (name : Name) : Moderate (.symbol name)
  | list {items : List Datum} : (∀ item ∈ items, Moderate item) → Moderate (.list items)
  | procedure {name : Option Name} {parameters : List Name} {body : List Datum} :
      (∀ expression ∈ body, Moderate expression) → Moderate (.procedure name parameters body)
  | foreign (value : Foreign) : Moderate (.foreign value)

variable {datum : Datum}

theorem moderate_list_iff {items : List Datum} :
    (Datum.list items).Moderate ↔ ∀ item ∈ items, item.Moderate := by
  constructor
  · rintro ⟨⟩
    assumption
  · exact .list

theorem moderate_integer_iff {value : Int} :
    (Datum.integer value).Moderate ↔ Numeral.Moderate value := by
  constructor
  · rintro ⟨⟩
    assumption
  · exact .integer

/-- What stands in moderate data is moderate. -/
theorem Moderate.of_inside {part : Datum} (h : datum.Moderate) (hinside : Inside part datum) :
    part.Moderate := by
  induction hinside with
  | self => exact h
  | member hitem _ ih => exact ih (moderate_list_iff.mp h _ hitem)

/-- The numbers that the description of a moderate datum shows are moderate. -/
theorem Moderate.of_shows {number : Int} (h : datum.Moderate) (hshows : datum.Shows number) :
    Numeral.Moderate number := by
  induction hshows with
  | integer => exact moderate_integer_iff.mp h
  | member hitem _ ih => exact ih (moderate_list_iff.mp h _ hitem)
  | body hmem hinside =>
    cases h with
    | procedure hbody => exact moderate_integer_iff.mp ((hbody _ hmem).of_inside hinside)

/-- Moderate data are described without a number that is too long. -/
theorem Moderate.short (h : datum.Moderate) : datum.Short :=
  fun _ hshows => (h.of_shows hshows).isTooLong

/-- Only their depth keeps moderate data from being printed. -/
theorem Moderate.unprintable_of_print? {limits : Limits} {fault : Fault} (h : datum.Moderate)
    (hprint : datum.print? limits = .error fault) : fault = unprintable := by
  rcases print?_eq_error hprint with hdepth | ⟨_, number, hinside, hlong⟩
  · exact hdepth
  · have hshort := (moderate_integer_iff.mp (h.of_inside hinside)).isTooLong
    rw [hshort] at hlong
    cases hlong

theorem Written.moderate (h : datum.Written) : datum.Moderate := by
  obtain ⟨hexpressible, hreadable⟩ := h
  induction hexpressible with
  | boolean value => exact .boolean value
  | integer value =>
    obtain ⟨hpos, hgreatest⟩ := hreadable.integers value .self
    exact .integer (Numeral.moderate_of_fits (fits_of_nonneg hpos hgreatest))
  | symbol name => exact .symbol name
  | list _ ih =>
    have hitems := readable_list_iff.mp hreadable
    exact .list fun item hitem => ih item hitem (hitems item hitem)

/-- What programs compute is moderate. -/
theorem Computed.moderate (h : datum.Computed) : datum.Moderate := by
  induction h with
  | boolean value => exact .boolean value
  | integer hfits => exact .integer (Numeral.moderate_of_fits hfits)
  | symbol => exact .symbol _
  | list _ ih => exact .list ih
  | procedure _ _ hbody => exact .procedure fun expression hmem => (hbody expression hmem).moderate

end SmallScheme.Datum
