import SmallScheme.Environment

/-!
# Looking names up

What a name means behind the operations on environments. A frame that is just entered changes no
meaning, and a binding changes the meaning of its own name only.
-/

namespace SmallScheme

/-- The value that a binding in force gives to its name. -/
def Binding.meaning? (binding : Binding) : Option Datum :=
  match binding.value with
  | .foreign .null => none
  | value => some value

theorem Binding.eq_of_meaning? {binding : Binding} {value : Datum}
    (h : binding.meaning? = some value) : binding.value = value := by
  unfold meaning? at h
  split at h
  · cases h
  · exact Option.some.inj h

namespace Environment

theorem lookup?_eq (env : Environment) (name : Name) :
    env.lookup? name = (env.binding? name).bind Binding.meaning? := by
  unfold lookup?
  split
  · next h => rw [h, Option.bind_none]
  · next h => rw [h, Option.bind_some, Binding.meaning?]
  · next binding hnull h =>
    rw [h, Option.bind_some, Binding.meaning?]
    split
    · next hvalue => exact (hnull binding.name (by rw [← hvalue])).elim
    · rfl

/-- Entering a frame changes the meaning of no name. -/
@[simp] theorem lookup?_push (env : Environment) (name : Name) :
    env.push.lookup? name = env.lookup? name :=
  rfl

/-- What a name means that has just been bound depends on the value alone. -/
theorem lookup?_bind_self (env : Environment) (name : Name) (value : Datum) :
    (env.bind name value).lookup? name = Binding.meaning? ⟨name, value⟩ := by
  simp only [lookup?_eq, binding?, frames, bind, List.findSome?_cons, List.find?_cons,
    beq_self_eq_true, Option.bind_some]

/-- Binding a name changes the meaning of no other name. -/
theorem lookup?_bind_of_ne (env : Environment) {name other : Name} (value : Datum)
    (h : name ≠ other) : (env.bind name value).lookup? other = env.lookup? other := by
  have hbeq : (name == other) = false := beq_eq_false_iff_ne.mpr h
  simp only [lookup?_eq, binding?, frames, bind, List.findSome?_cons, List.find?_cons, hbeq]

/-- The environment whose only frame holds all bindings, those of inner frames in front. -/
def joined (env : Environment) : Environment :=
  ⟨env.frames.flatten, []⟩

/-- Names mean the same when all frames are joined. -/
theorem lookup?_joined (env : Environment) (name : Name) :
    env.joined.lookup? name = env.lookup? name := by
  have hflatten : env.joined.frames.flatten = env.frames.flatten := List.append_nil _
  rw [lookup?_eq, lookup?_eq, binding?, binding?, ← List.find?_flatten, ← List.find?_flatten,
    hflatten]

end Environment

end SmallScheme
