import SmallScheme.Limits
import SmallScheme.Proofs.Data.Parts

/-!
# What keeps errors from being worded

An error that shows data gives way to the first obstacle among them. There are two kinds: something
is nested too deeply, be it a datum that is described or the body of a procedure that is printed, or
a number has too many digits (`Error.obstacle?_cases`). Depth depends on the limits and length does
not, so an error that no depth keeps from being worded comes to the same fault with all greater
limits (`Error.obstacle?_of_le`).
-/

namespace SmallScheme

variable {limits larger : Limits} {levels more : Nat} {datum : Datum} {items : List Datum}
  {fault : Fault}

/-- Being a fault of data that are nested too deeply to be described or printed. -/
inductive Fault.OfDepth : Fault → Prop
  | exhausted : OfDepth .exhausted
  | unprintable : OfDepth Datum.unprintable

/-- Two searches find the same if they agree on every item up to the one that is found first. -/
theorem findSome?_eq_of_found {α β : Type} {f g : α → Option β} {property : β → Prop}
    {items : List α} (hitems : ∀ item ∈ items, (∀ found ∈ f item, property found) → g item = f item)
    (h : ∀ found ∈ items.findSome? f, property found) :
    items.findSome? g = items.findSome? f := by
  induction items with
  | nil => rfl
  | cons item items ih =>
    obtain ⟨hitem, hrest⟩ := List.forall_mem_cons.mp hitems
    rw [List.findSome?_cons] at h ⊢
    rcases hfirst : f item with _ | found
    · rw [hfirst] at h hitem
      rw [hitem nofun, List.findSome?_cons, hfirst]
      exact ih hrest h
    · rw [hfirst] at h hitem
      rw [hitem h, List.findSome?_cons, hfirst]

namespace Datum

/-- All of some data are nested as deeply at most as a limit allows if each of them is. -/
theorem depthOfAll_le_iff {limit : Nat} :
    depthOfAll items ≤ limit ↔ ∀ item ∈ items, item.depth ≤ limit := by
  induction items with
  | nil => simp [depthOfAll]
  | cons item items ih => rw [depthOfAll, Nat.max_le, ih, List.forall_mem_cons]

/-- Being a number that a description shows, where it is written or in the body of a procedure. -/
inductive Shows (number : Int) : Datum → Prop
  | integer : Shows number (.integer number)
  | member {item : Datum} {items : List Datum} : item ∈ items → Shows number item →
      Shows number (.list items)
  | body {name : Option Name} {parameters : List Name} {expression : Datum} {body : List Datum} :
      expression ∈ body → Inside (.integer number) expression →
      Shows number (.procedure name parameters body)

/-- Being described without a number that is too long. -/
def Short (datum : Datum) : Prop :=
  ∀ number, datum.Shows number → Numeral.isTooLong number = false

theorem short_list_iff : (Datum.list items).Short ↔ ∀ item ∈ items, item.Short := by
  constructor
  · exact fun h item hitem number hnumber => h number (.member hitem hnumber)
  · intro h number hnumber
    cases hnumber with
    | member hitem hnumber => exact h _ hitem number hnumber

theorem printingObstacleAmong?_eq (levels : Nat) (items : List Datum) :
    printingObstacleAmong? levels items = items.findSome? (printingObstacle? levels) := by
  induction items with
  | nil => rfl
  | cons item items ih =>
    rw [printingObstacleAmong?, List.findSome?_cons, ih]
    cases printingObstacle? levels item <;> rfl

theorem obstacleAmong?_eq (limits : Limits) (levels : Nat) (items : List Datum) :
    obstacleAmong? limits levels items = items.findSome? (obstacle? limits levels) := by
  induction items with
  | nil => rfl
  | cons item items ih =>
    rw [obstacleAmong?, List.findSome?_cons, ih]
    cases obstacle? limits levels item <;> rfl

/-- A datum can be printed if it is not nested too deeply and no number in it is too long. -/
theorem printingObstacle?_eq_none_iff :
    printingObstacle? levels datum = none ↔ datum.depth ≤ levels ∧
      ∀ number, Inside (.integer number) datum → Numeral.isTooLong number = false := by
  induction datum generalizing levels with
  | integer value =>
    rw [printingObstacle?, Numeral.obstacle?_eq_none_iff]
    constructor
    · intro hshort
      refine ⟨Nat.zero_le _, ?_⟩
      rintro _ ⟨⟩
      exact hshort
    · intro h
      exact h.2 value .self
  | list items ih =>
    cases levels with
    | zero => simp [printingObstacle?, depth]
    | succ levels =>
      rw [printingObstacle?, printingObstacleAmong?_eq, List.findSome?_eq_none_iff, depth,
        Nat.add_le_add_iff_right, depthOfAll_le_iff]
      constructor
      · intro h
        refine ⟨fun item hitem => ((ih item hitem).mp (h item hitem)).1, fun number hnumber => ?_⟩
        cases hnumber with
        | member hitem hnumber => exact ((ih _ hitem).mp (h _ hitem)).2 number hnumber
      · rintro ⟨hdepth, hshort⟩ item hitem
        exact (ih item hitem).mpr
          ⟨hdepth item hitem, fun number hnumber => hshort number (.member hitem hnumber)⟩
  | boolean | symbol | procedure | foreign =>
    refine ⟨fun _ => ⟨Nat.zero_le _, ?_⟩, fun _ => rfl⟩
    rintro _ ⟨⟩

/-- What keeps a datum from being printed is its depth, or a number that is too long. -/
theorem printingObstacle?_cases (h : printingObstacle? levels datum = some fault) :
    fault = unprintable ∨ fault = .numberTooLong ∧
      ∃ number, Inside (.integer number) datum ∧ Numeral.isTooLong number = true := by
  induction datum generalizing levels with
  | integer value =>
    obtain ⟨hlong, rfl⟩ := Numeral.obstacle?_eq_some_iff.mp h
    exact Or.inr ⟨rfl, value, .self, hlong⟩
  | list items ih =>
    cases levels with
    | zero =>
      cases h
      exact Or.inl rfl
    | succ levels =>
      rw [printingObstacle?, printingObstacleAmong?_eq] at h
      obtain ⟨item, hitem, hfound⟩ := List.exists_of_findSome?_eq_some h
      refine (ih item hitem hfound).imp_right ?_
      rintro ⟨rfl, number, hnumber, hlong⟩
      exact ⟨rfl, number, .member hitem hnumber, hlong⟩
  | boolean | symbol | procedure | foreign => cases h

/-- What keeps a datum from being described is depth, or a number that is too long. -/
theorem obstacle?_cases (h : obstacle? limits levels datum = some fault) :
    fault.OfDepth ∨ fault = .numberTooLong ∧
      ∃ number, datum.Shows number ∧ Numeral.isTooLong number = true := by
  induction datum generalizing levels with
  | integer value =>
    obtain ⟨hlong, rfl⟩ := Numeral.obstacle?_eq_some_iff.mp h
    exact Or.inr ⟨rfl, value, .integer, hlong⟩
  | list items ih =>
    cases levels with
    | zero =>
      cases h
      exact Or.inl .exhausted
    | succ levels =>
      rw [obstacle?, obstacleAmong?_eq] at h
      obtain ⟨item, hitem, hfound⟩ := List.exists_of_findSome?_eq_some h
      refine (ih item hitem hfound).imp_right ?_
      rintro ⟨rfl, number, hnumber, hlong⟩
      exact ⟨rfl, number, .member hitem hnumber, hlong⟩
  | procedure name parameters body =>
    rw [obstacle?, printingObstacleAmong?_eq] at h
    obtain ⟨expression, hmem, hfound⟩ := List.exists_of_findSome?_eq_some h
    rcases printingObstacle?_cases hfound with rfl | ⟨rfl, number, hnumber, hlong⟩
    · exact Or.inl .unprintable
    · exact Or.inr ⟨rfl, number, .body hmem hnumber, hlong⟩
  | boolean | symbol | foreign => cases h

/-- What no depth keeps from being printed is the same with more levels. -/
theorem printingObstacle?_of_le (hlevels : levels ≤ more)
    (h : ∀ fault ∈ printingObstacle? levels datum, ¬ fault.OfDepth) :
    printingObstacle? more datum = printingObstacle? levels datum := by
  induction datum generalizing levels more with
  | list items ih =>
    cases levels with
    | zero => exact absurd .unprintable (h _ rfl)
    | succ levels =>
      obtain ⟨more, rfl⟩ := Nat.exists_eq_succ_of_ne_zero (Nat.ne_of_gt (Nat.zero_lt_of_lt hlevels))
      rw [printingObstacle?, printingObstacleAmong?_eq] at h
      rw [printingObstacle?, printingObstacle?, printingObstacleAmong?_eq,
        printingObstacleAmong?_eq]
      exact findSome?_eq_of_found
        (fun item hitem => ih item hitem (Nat.le_of_succ_le_succ hlevels)) h
  | boolean | integer | symbol | procedure | foreign => rfl

/-- What no depth keeps from being described is the same within greater limits. -/
theorem obstacle?_of_le (hlimits : limits.calls ≤ larger.calls) (hlevels : levels ≤ more)
    (h : ∀ fault ∈ obstacle? limits levels datum, ¬ fault.OfDepth) :
    obstacle? larger more datum = obstacle? limits levels datum := by
  induction datum generalizing levels more with
  | list items ih =>
    cases levels with
    | zero => exact absurd .exhausted (h _ rfl)
    | succ levels =>
      obtain ⟨more, rfl⟩ := Nat.exists_eq_succ_of_ne_zero (Nat.ne_of_gt (Nat.zero_lt_of_lt hlevels))
      rw [obstacle?, obstacleAmong?_eq] at h
      rw [obstacle?, obstacle?, obstacleAmong?_eq, obstacleAmong?_eq]
      exact findSome?_eq_of_found
        (fun item hitem => ih item hitem (Nat.le_of_succ_le_succ hlevels)) h
  | procedure name parameters body =>
    have hprinting : limits.printing ≤ larger.printing := Nat.div_le_div_right hlimits
    rw [obstacle?, printingObstacleAmong?_eq] at h
    rw [obstacle?, obstacle?, printingObstacleAmong?_eq, printingObstacleAmong?_eq]
    exact findSome?_eq_of_found (fun expression _ => printingObstacle?_of_le hprinting) h
  | boolean | integer | symbol | foreign => rfl

theorem print?_eq_ok_iff {printed : String} :
    datum.print? limits = .ok printed ↔
      printingObstacle? limits.printing datum = none ∧ printed = datum.print :=
  textUnless_eq_ok_iff

/-- What keeps a datum from being printed is its depth, or a number that is too long. -/
theorem print?_eq_error (h : datum.print? limits = .error fault) :
    fault = unprintable ∨ fault = .numberTooLong ∧
      ∃ number, Inside (.integer number) datum ∧ Numeral.isTooLong number = true :=
  printingObstacle?_cases (textUnless_eq_error_iff.mp h)

end Datum

namespace Error

variable {error : Error}

/-- Describing no number that is too long. -/
def Writable (error : Error) : Prop :=
  ∀ datum ∈ error.described, datum.Short

/-- An error that describes no data can be written. -/
theorem writable_of_described (h : error.described = []) : error.Writable := by
  rw [Writable, h]
  exact fun _ hmem => absurd hmem List.not_mem_nil

/-- An error is kept from being worded by depth, or by a number that is too long. -/
theorem obstacle?_cases (h : error.obstacle? limits = some fault) :
    fault.OfDepth ∨ fault = .numberTooLong ∧ ∃ datum ∈ error.described,
      ∃ number, datum.Shows number ∧ Numeral.isTooLong number = true := by
  rw [obstacle?, Datum.obstacleAmong?_eq] at h
  obtain ⟨datum, hmem, hfound⟩ := List.exists_of_findSome?_eq_some h
  refine (Datum.obstacle?_cases hfound).imp_right ?_
  rintro ⟨rfl, hnumber⟩
  exact ⟨rfl, datum, hmem, hnumber⟩

/-- An overflow is kept from being worded by the length of its number only. -/
theorem obstacle?_overflow (limits : Limits) (number : Int) :
    (Error.overflow number).obstacle? limits = Numeral.obstacle? number :=
  Option.or_none

theorem fault_eq (h : error.obstacle? limits = none) : error.fault limits = .reported error := by
  rw [fault, h]
  rfl

/-- An error is raised as itself, or as what keeps it from being worded: depth, or a number that it
shows. -/
theorem fault_cases (limits : Limits) (error : Error) :
    error.fault limits = .reported error ∨ (error.fault limits).OfDepth ∨
      error.fault limits = .numberTooLong ∧ ∃ datum ∈ error.described,
        ∃ number, datum.Shows number ∧ Numeral.isTooLong number = true := by
  rcases hobstacle : error.obstacle? limits with _ | obstacle
  · exact Or.inl (fault_eq hobstacle)
  · right
    rw [fault, hobstacle]
    exact obstacle?_cases hobstacle

/-- An error that no depth keeps from being worded comes to the same within greater limits. -/
theorem obstacle?_of_le (hlimits : limits.calls ≤ larger.calls)
    (h : ∀ fault ∈ error.obstacle? limits, ¬ fault.OfDepth) :
    error.obstacle? larger = error.obstacle? limits := by
  rw [obstacle?, Datum.obstacleAmong?_eq] at h
  rw [obstacle?, obstacle?, Datum.obstacleAmong?_eq, Datum.obstacleAmong?_eq]
  exact findSome?_eq_of_found (fun _ _ => Datum.obstacle?_of_le hlimits hlimits) h

end Error

end SmallScheme
