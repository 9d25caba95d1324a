import SmallScheme.Proofs.Data.Computed
import SmallScheme.Proofs.Environment.Lookup

/-!
# Environments of computed values

A binding to the foreign null hides a name without giving it a value. Where all values are such as
programs compute there is none, so a name has a value just if some frame binds it.
-/

namespace SmallScheme.Environment

/-- Binding names to values of a property only, in every frame. -/
def Binds (values : Datum → Prop) (env : Environment) : Prop :=
  ∀ frame ∈ env.frames, ∀ binding ∈ frame, values binding.value

/-- Binding names to computed values only, in every frame. -/
def Computed (env : Environment) : Prop :=
  ∀ frame ∈ env.frames, ∀ binding ∈ frame, binding.value.Computed

section Binds

variable {values : Datum → Prop} {env : Environment}

theorem binds_empty (values : Datum → Prop) : empty.Binds values := by
  intro frame hframe binding hbinding
  rw [List.mem_singleton.mp hframe] at hbinding
  exact absurd hbinding List.not_mem_nil

theorem Binds.push (h : env.Binds values) : env.push.Binds values := by
  intro frame hframe binding hbinding
  rcases List.mem_cons.mp hframe with rfl | houter
  · exact absurd hbinding List.not_mem_nil
  · exact h frame houter binding hbinding

theorem Binds.bind (h : env.Binds values) (name : Name) {value : Datum} (hvalue : values value) :
    (env.bind name value).Binds values := by
  intro frame hframe binding hbinding
  rcases List.mem_cons.mp hframe with rfl | houter
  · rcases List.mem_cons.mp hbinding with rfl | hold
    · exact hvalue
    · exact h _ List.mem_cons_self binding hold
  · exact h frame (List.mem_cons_of_mem _ houter) binding hbinding

theorem Binds.bindAll (h : env.Binds values) (names : List Name) {data : List Datum}
    (hdata : ∀ datum ∈ data, values datum) : (env.bindAll names data).Binds values := by
  induction names generalizing env data with
  | nil => exact h
  | cons name names ih =>
    cases data with
    | nil => exact h
    | cons datum data =>
      obtain ⟨hdatum, hrest⟩ := List.forall_mem_cons.mp hdata
      exact ih (h.bind name hdatum) hrest

end Binds

theorem computed_empty : empty.Computed :=
  binds_empty Datum.Computed

/-- The binding in force stands in one of the frames. -/
theorem mem_of_binding? {env : Environment} {name : Name} {binding : Binding}
    (h : env.binding? name = some binding) :
    ∃ frame ∈ env.frames, binding ∈ frame ∧ binding.name = name := by
  obtain ⟨frame, hframe, hfind⟩ := List.exists_of_findSome?_eq_some h
  exact ⟨frame, hframe, List.mem_of_find?_eq_some hfind, by simpa using List.find?_some hfind⟩

/-- No binding is in force just if no frame has one of the name. -/
theorem binding?_eq_none_iff {env : Environment} {name : Name} :
    env.binding? name = none ↔ ∀ frame ∈ env.frames, ∀ binding ∈ frame, binding.name ≠ name := by
  simp [binding?, List.findSome?_eq_none_iff]

/-- A computed value is what its binding means. -/
theorem meaning?_of_computed {binding : Binding} (h : binding.value.Computed) :
    binding.meaning? = some binding.value := by
  unfold Binding.meaning?
  split
  · next hnull => exact absurd hnull (h.ne_foreign .null)
  · rfl

variable {env : Environment}

theorem Binds.lookup? {values : Datum → Prop} (h : env.Binds values) {name : Name} {value : Datum}
    (hlookup : env.lookup? name = some value) : values value := by
  rw [lookup?_eq, Option.bind_eq_some_iff] at hlookup
  obtain ⟨binding, hbinding, hmeaning⟩ := hlookup
  obtain ⟨frame, hframe, hmem, _⟩ := mem_of_binding? hbinding
  exact Binding.eq_of_meaning? hmeaning ▸ h frame hframe binding hmem

/-- A name has no value just if no frame binds it. -/
theorem Computed.lookup?_eq_none_iff (h : env.Computed) (name : Name) :
    env.lookup? name = none ↔ ∀ frame ∈ env.frames, ∀ binding ∈ frame, binding.name ≠ name := by
  rw [← binding?_eq_none_iff, lookup?_eq]
  cases hbinding : env.binding? name with
  | none => simp
  | some binding =>
    obtain ⟨frame, hframe, hmem, _⟩ := mem_of_binding? hbinding
    simp [meaning?_of_computed (h frame hframe binding hmem)]

end SmallScheme.Environment
