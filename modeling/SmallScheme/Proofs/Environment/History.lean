import Mathlib.Data.List.Basic
import Mathlib.Data.List.Induction
import SmallScheme.Proofs.Environment.Blocks
import SmallScheme.Proofs.Environment.Lookup

/-!
# What a history leaves bound

An environment is searched through space: from the innermost frame outwards and from the latest
binding back. This file tells what is found in terms of time. Behind any history of entering and
leaving frames and of binding names, a name means what it was bound to last, among the bindings
whose frames have not been left since (`lookup_behind`). The only thing that has to be known about
the frames for this is how many there have been at each moment.
-/

namespace SmallScheme.Environment

/-- Something that is done to an environment. -/
inductive Operation where
  | push
  | pop
  /-- Binds a name, if the key is a symbol. -/
  | bind (key value : Datum)

namespace Operation

/-- The environment behind an operation. What is refused changes nothing. -/
def perform (env : Environment) : Operation → Environment
  | .push => env.push
  | .pop => env.pop.toOption.getD env
  | .bind key value => (env.bindSymbol key value).toOption.getD env

/-- The number of frames behind an operation. The last frame cannot be left. -/
def count (frames : Nat) : Operation → Nat
  | .push => frames + 1
  | .pop => max 1 (frames - 1)
  | .bind .. => frames

end Operation

/-- The environment behind a history that begins with a new one. -/
def behind (history : List Operation) : Environment :=
  history.foldl Operation.perform empty

/-- The number of frames behind a history. -/
def framesBehind (history : List Operation) : Nat :=
  history.foldl Operation.count 1

/-- That the innermost frame of a moment is still there behind what followed: there have never been
fewer frames since. -/
def Lasts (before rest : List Operation) : Prop :=
  ∀ part, part <+: rest → framesBehind before ≤ framesBehind (before ++ part)

/-- Binding a name to a value behind a beginning of a history, in a frame that has not been left
since. -/
def BindsLasting (history before : List Operation) (name : Name) (value : Datum) : Prop :=
  ∃ rest, history = before ++ .bind (.symbol name) value :: rest ∧
    Lasts before (.bind (.symbol name) value :: rest)

/-- Being the value of the latest binding of a name whose frame has not been left since. -/
def Latest (history : List Operation) (name : Name) (value : Datum) : Prop :=
  ∃ before, BindsLasting history before name value ∧
    ∀ earlier other, BindsLasting history earlier name other → earlier.length ≤ before.length

/-- What a history tells about a name: the value it was bound to last, or that no binding of it has
lasted. -/
inductive Tells (history : List Operation) (name : Name) : Option Datum → Prop
  | bound {value : Datum} : Latest history name value →
      Tells history name (Binding.meaning? ⟨name, value⟩)
  | unbound : (∀ before value, ¬ BindsLasting history before name value) →
      Tells history name none

/-- Being what happened from the moment a frame was entered behind `before` up to a moment at which
that frame is the innermost one again, or still. -/
structure Within (before middle : List Operation) : Prop where
  lasts : Lasts (before ++ [.push]) middle
  frames : framesBehind (before ++ .push :: middle) = framesBehind before + 1

variable {before rest more history : List Operation} {operation : Operation} {name : Name}
  {value : Datum}

theorem behind_concat (history : List Operation) (operation : Operation) :
    behind (history ++ [operation]) = operation.perform (behind history) := by
  rw [behind, List.foldl_append]
  rfl

theorem framesBehind_concat (history : List Operation) (operation : Operation) :
    framesBehind (history ++ [operation]) = operation.count (framesBehind history) := by
  rw [framesBehind, List.foldl_append]
  rfl

theorem depth_eq (env : Environment) : env.depth = env.outer.length + 1 :=
  rfl

theorem perform_bind (env : Environment) (key value : Datum) :
    ((∀ name, key ≠ .symbol name) ∧ (Operation.bind key value).perform env = env) ∨
      ∃ name, key = .symbol name ∧
        (Operation.bind key value).perform env = env.bind name value := by
  cases key with
  | symbol name => exact Or.inr ⟨name, rfl, rfl⟩
  | _ => exact Or.inl ⟨fun _ => Datum.noConfusion, rfl⟩

/-- Each operation counts the frames as it changes them. -/
theorem depth_perform (env : Environment) (operation : Operation) :
    (operation.perform env).depth = operation.count env.depth := by
  cases operation with
  | push => rfl
  | pop =>
    rcases env with ⟨innermost, _ | ⟨frame, outer⟩⟩
    · rfl
    · simp [Operation.perform, Operation.count, pop, Except.toOption, depth, frames]
  | bind key value =>
    rcases perform_bind env key value with ⟨_, hsame⟩ | ⟨name, _, hbind⟩
    · rw [hsame]
      rfl
    · rw [hbind]
      rfl

/-- There are as many frames behind a history as have been counted. -/
theorem depth_behind (history : List Operation) :
    (behind history).depth = framesBehind history := by
  induction history using List.reverseRecOn with
  | nil => rfl
  | append_singleton history operation ih =>
    rw [behind_concat, framesBehind_concat, depth_perform, ih]

section Lasts

theorem lasts_nil (before : List Operation) : Lasts before [] := by
  intro part hpart
  obtain rfl := List.prefix_nil.mp hpart
  exact Nat.le_of_eq (congrArg framesBehind (List.append_nil before).symm)

theorem Lasts.left (h : Lasts before (rest ++ more)) : Lasts before rest :=
  fun part hpart => h part (hpart.trans (List.prefix_append rest more))

/-- A frame lasts through a whole if it lasts through a part and there never are fewer frames than
behind the part. -/
theorem Lasts.append (h : Lasts before rest) (hmore : Lasts (before ++ rest) more) :
    Lasts before (rest ++ more) := by
  intro part hpart
  rcases List.prefix_or_prefix_of_prefix hpart (List.prefix_append rest more) with
    hfirst | ⟨later, rfl⟩
  · exact h part hfirst
  · have hrest := h rest List.prefix_rfl
    have hlater := hmore later ((List.prefix_append_right_inj rest).mp hpart)
    rw [← List.append_assoc]
    exact Nat.le_trans hrest hlater

theorem lasts_concat_iff :
    Lasts before (rest ++ [operation]) ↔
      Lasts before rest ∧ framesBehind before ≤ framesBehind (before ++ (rest ++ [operation])) := by
  constructor
  · intro h
    exact ⟨h.left, h _ List.prefix_rfl⟩
  · rintro ⟨h, hlast⟩ part hpart
    rcases List.prefix_concat_iff.mp hpart with rfl | hfirst
    · exact hlast
    · exact h part hfirst

/-- The frames around the innermost one are the same, and in their places, as long as it lasts. -/
theorem Lasts.outer (h : Lasts before rest) :
    (behind before).outer <:+ (behind (before ++ rest)).outer := by
  induction rest using List.reverseRecOn with
  | nil => exact (List.append_nil before).symm ▸ List.suffix_rfl
  | append_singleton rest operation ih =>
    obtain ⟨hrest, hframes⟩ := lasts_concat_iff.mp h
    have hsuffix := ih hrest
    rw [← depth_behind, ← depth_behind, ← List.append_assoc, behind_concat] at hframes
    rw [← List.append_assoc, behind_concat]
    generalize behind (before ++ rest) = env at hsuffix hframes
    rcases env with ⟨innermost, outer⟩
    cases operation with
    | push => exact hsuffix.trans (List.suffix_cons _ _)
    | bind key value =>
      rcases perform_bind ⟨innermost, outer⟩ key value with ⟨_, hsame⟩ | ⟨name, _, hbind⟩
      · rw [hsame]
        exact hsuffix
      · rw [hbind]
        exact hsuffix
    | pop =>
      cases outer with
      | nil => exact hsuffix
      | cons frame outer =>
        -- All of the frames would be too many to be kept, since one of them is left.
        rcases List.suffix_cons_iff.mp hsuffix with hall | hsome
        · have hlength := congrArg List.length hall
          simp only [depth_eq, Operation.perform, pop, Except.toOption, Option.getD_some,
            List.length_cons] at hframes hlength
          omega
        · exact hsome

end Lasts

/-- Leaving a frame that was entered behind some history leads back to the environment behind it. -/
theorem Within.pop (h : Within before rest) :
    (behind (before ++ .push :: rest)).pop = .ok (behind before) := by
  have hsplit : before ++ .push :: rest = before ++ [.push] ++ rest := by simp
  have hsuffix := h.lasts.outer
  rw [← hsplit, behind_concat] at hsuffix
  have hframes := h.frames
  rw [← depth_behind, ← depth_behind] at hframes
  have houter : (behind before).frames = (behind (before ++ .push :: rest)).outer := by
    rw [depth_eq (behind (before ++ .push :: rest))] at hframes
    exact hsuffix.eq_of_length (Nat.succ.inj hframes).symm
  rw [Environment.pop, ← houter]
  rfl

theorem one_le_framesBehind (history : List Operation) : 1 ≤ framesBehind history := by
  rw [← depth_behind, depth_eq]
  exact Nat.succ_le_succ (Nat.zero_le _)

theorem lasts_singleton (h : framesBehind history ≤ operation.count (framesBehind history)) :
    Lasts history [operation] := by
  have hlast : framesBehind history ≤ framesBehind (history ++ ([] ++ [operation])) := by
    rwa [List.nil_append, framesBehind_concat]
  exact lasts_concat_iff.mpr ⟨lasts_nil history, hlast⟩

theorem lasts_push (history : List Operation) : Lasts history [.push] :=
  lasts_singleton (Nat.le_succ _)

theorem lasts_bind (history : List Operation) (key value : Datum) :
    Lasts history [.bind key value] :=
  lasts_singleton (Nat.le_refl _)

theorem lasts_root (h : framesBehind history = 1) : Lasts history [.pop] :=
  lasts_singleton (h ▸ Nat.le_refl 1)

theorem Within.frames_pop (h : Within before rest) :
    framesBehind (before ++ (.push :: rest ++ [.pop])) = framesBehind before := by
  have hpos := one_le_framesBehind before
  rw [← List.append_assoc, framesBehind_concat, h.frames, Operation.count]
  omega

/-- No frame is lost from entering a frame up to leaving it. -/
theorem Within.lasts_pop (h : Within before rest) : Lasts before (.push :: rest ++ [.pop]) := by
  have hmiddle : Lasts before (.push :: rest) := (lasts_push before).append h.lasts
  exact lasts_concat_iff.mpr ⟨hmiddle, Nat.le_of_eq h.frames_pop.symm⟩

/-- Where a frame can be left, it was entered at some moment. -/
theorem exists_within (h : 1 < framesBehind history) :
    ∃ before middle, history = before ++ .push :: middle ∧ Within before middle := by
  induction hlength : history.length using Nat.strongRecOn generalizing history with
  | ind length ih =>
    rcases List.eq_nil_or_concat' history with rfl | ⟨earlier, operation, rfl⟩
    · exact absurd h (Nat.lt_irrefl 1)
    · rw [framesBehind_concat] at h
      have hshorter : earlier.length < length := by
        rw [← hlength, List.length_append]
        exact Nat.lt_succ_self _
      cases operation with
      | push =>
        refine ⟨earlier, [], rfl, lasts_nil _, ?_⟩
        rw [framesBehind_concat, Operation.count]
      | bind key value =>
        obtain ⟨before, middle, rfl, hwithin⟩ := ih _ hshorter h rfl
        have hsplit : before ++ .push :: middle ++ [.bind key value] =
            before ++ .push :: (middle ++ [.bind key value]) := by simp
        have hframes : framesBehind (before ++ .push :: (middle ++ [.bind key value])) =
            framesBehind before + 1 := by
          rw [← hsplit, framesBehind_concat, Operation.count, hwithin.frames]
        exact ⟨before, middle ++ [.bind key value], hsplit,
          hwithin.lasts.append (lasts_bind _ key value), hframes⟩
      | pop =>
        -- The frame left last was entered inside of the frame that is innermost now.
        rw [Operation.count] at h
        obtain ⟨inner, middle, rfl, hwithin⟩ := ih _ hshorter (by omega) rfl
        have hinner : inner.length < length := by
          rw [List.length_append] at hshorter
          omega
        rw [hwithin.frames] at h
        obtain ⟨before, first, rfl, houter⟩ := ih _ hinner (by omega) rfl
        have hsplit : before ++ .push :: first ++ .push :: middle ++ [.pop] =
            before ++ .push :: (first ++ (.push :: middle ++ [.pop])) := by simp
        refine ⟨before, first ++ (.push :: middle ++ [.pop]), hsplit, ?_, ?_⟩
        · refine houter.lasts.append ?_
          have hlasts := hwithin.lasts_pop
          rwa [show before ++ .push :: first = before ++ [.push] ++ first by simp] at hlasts
        · have hframes := hwithin.frames_pop
          rw [← hsplit, List.append_assoc]
          exact hframes.trans houter.frames

/-- Leaving a frame that was entered behind some history leads back to the environment behind it. -/
theorem Within.behind_pop (h : Within before rest) :
    behind (before ++ (.push :: rest ++ [.pop])) = behind before := by
  rw [← List.append_assoc, behind_concat, Operation.perform, h.pop]
  rfl

/-- The only frame cannot be left. -/
theorem pop_root (h : framesBehind history = 1) : (behind history).pop = .error .rootFrame := by
  rw [← depth_behind, depth_eq] at h
  rw [pop, List.length_eq_zero_iff.mp (Nat.succ.inj h)]

theorem behind_root (h : framesBehind history = 1) :
    behind (history ++ [.pop]) = behind history := by
  rw [behind_concat, Operation.perform, pop_root h]
  rfl

theorem one_lt_framesBehind_of_pop {env : Environment} (h : (behind history).pop = .ok env) :
    1 < framesBehind history := by
  rcases Nat.lt_or_eq_of_le (one_le_framesBehind history) with hmore | hone
  · exact hmore
  · rw [pop_root hone.symm] at h
    cases h

/-- Induction over histories: what is left at the end of one is the only frame, or a frame that was
entered behind a shorter one. -/
@[elab_as_elim]
theorem history_induction {motive : List Operation → Prop} (new : motive [])
    (push : ∀ history, motive history → motive (history ++ [.push]))
    (bind : ∀ history key value, motive history → motive (history ++ [.bind key value]))
    (root : ∀ history, framesBehind history = 1 → motive history → motive (history ++ [.pop]))
    (pop : ∀ before middle, Within before middle → motive before →
      motive (before ++ (.push :: middle ++ [.pop])))
    (history : List Operation) : motive history := by
  induction hlength : history.length using Nat.strongRecOn generalizing history with
  | ind length ih =>
    rcases List.eq_nil_or_concat' history with rfl | ⟨earlier, operation, rfl⟩
    · exact new
    · have hshorter : earlier.length < length := by
        rw [← hlength, List.length_append]
        exact Nat.lt_succ_self _
      have hearlier := ih _ hshorter earlier rfl
      cases operation with
      | push => exact push earlier hearlier
      | bind key value => exact bind earlier key value hearlier
      | pop =>
        rcases Nat.lt_or_eq_of_le (one_le_framesBehind earlier) with hmore | hone
        · obtain ⟨before, middle, rfl, hwithin⟩ := exists_within hmore
          rw [List.length_append] at hshorter
          rw [List.append_assoc]
          exact pop before middle hwithin (ih _ (by omega) before rfl)
        · exact root earlier hone.symm hearlier

section Lookup

/-- Where no frame is lost, the bindings that lasted go on lasting, and one may have been added. -/
theorem bindsLasting_concat_iff (hlasts : Lasts history [operation]) :
    BindsLasting (history ++ [operation]) before name value ↔
      BindsLasting history before name value ∨
        before = history ∧ operation = .bind (.symbol name) value := by
  constructor
  · rintro ⟨rest, hhistory, hrest⟩
    rcases List.eq_nil_or_concat' rest with rfl | ⟨earlier, last, rfl⟩
    · obtain ⟨rfl, hoperation⟩ := List.append_inj' hhistory rfl
      exact Or.inr ⟨rfl, List.singleton_inj.mp hoperation⟩
    · rw [← List.cons_append, ← List.append_assoc] at hhistory
      obtain ⟨rfl, _⟩ := List.append_inj' hhistory rfl
      exact Or.inl ⟨earlier, rfl, hrest.left⟩
  · rintro (⟨rest, rfl, hrest⟩ | ⟨rfl, rfl⟩)
    · exact ⟨rest ++ [operation], by simp, hrest.append hlasts⟩
    · exact ⟨[], rfl, hlasts⟩

/-- Behind a frame that was entered and left, those bindings last that lasted before. -/
theorem Within.bindsLasting_iff {earlier : List Operation} (h : Within before rest) :
    BindsLasting (before ++ (.push :: rest ++ [.pop])) earlier name value ↔
      BindsLasting before earlier name value := by
  constructor
  · rintro ⟨later, hhistory, hlater⟩
    rcases List.append_eq_append_iff.mp hhistory with
      ⟨inside, rfl, hinside⟩ | ⟨between, rfl, hbetween⟩
    · -- A binding inside of the frame was made among more frames than there are left.
      exfalso
      cases inside with
      | nil => cases hinside
      | cons first inside =>
        obtain ⟨rfl, hinside⟩ := List.cons.inj hinside
        have hpart : inside <+: rest := by
          rcases List.eq_nil_or_concat' later with rfl | ⟨others, last, rfl⟩
          · cases (List.append_inj' hinside rfl).2
          · rw [← List.cons_append, ← List.append_assoc] at hinside
            obtain ⟨hrest, _⟩ := List.append_inj' hinside rfl
            exact ⟨_, (List.cons.inj hrest).2.symm⟩
        have hmore := h.lasts inside hpart
        have hall := hlater _ List.prefix_rfl
        rw [← hhistory, h.frames_pop] at hall
        rw [framesBehind_concat, Operation.count, List.append_assoc, List.singleton_append] at hmore
        omega
    · cases between with
      | nil => cases hbetween
      | cons first between =>
        obtain ⟨rfl, rfl⟩ := List.cons.inj hbetween
        exact ⟨between, rfl, hlater.left⟩
  · rintro ⟨later, rfl, hlater⟩
    exact ⟨later ++ (Operation.push :: rest ++ [Operation.pop]), by simp,
      hlater.append h.lasts_pop⟩

/-- What a history tells depends only on the bindings that have lasted. -/
theorem Tells.congr {other : List Operation} {answer : Option Datum} (h : Tells history name answer)
    (hsame : ∀ before value,
      BindsLasting other before name value ↔ BindsLasting history before name value) :
    Tells other name answer := by
  cases h with
  | bound hlatest =>
    obtain ⟨before, hbinds, hmost⟩ := hlatest
    refine .bound ⟨before, (hsame _ _).mpr hbinds, fun earlier value hearlier => ?_⟩
    exact hmost earlier value ((hsame _ _).mp hearlier)
  | unbound hnone => exact .unbound fun before value hbinds => hnone _ _ ((hsame _ _).mp hbinds)

/-- The latest binding of all is the latest one of its name. -/
theorem tells_bind (history : List Operation) (name : Name) (value : Datum) :
    Tells (history ++ [.bind (.symbol name) value]) name (Binding.meaning? ⟨name, value⟩) := by
  have hlasts := lasts_bind history (.symbol name) value
  refine .bound ⟨history, (bindsLasting_concat_iff hlasts).mpr (Or.inr ⟨rfl, rfl⟩), ?_⟩
  intro earlier other hearlier
  rcases (bindsLasting_concat_iff hlasts).mp hearlier with ⟨rest, rfl, _⟩ | ⟨rfl, _⟩
  · rw [List.length_append]
    exact Nat.le_add_right _ _
  · exact Nat.le_refl _

/-- An operation that loses no frame and does not bind a name tells nothing new about it. -/
theorem Tells.concat {answer : Option Datum} (h : Tells history name answer)
    (hlasts : Lasts history [operation])
    (hother : ∀ value, operation ≠ .bind (.symbol name) value) :
    Tells (history ++ [operation]) name answer := by
  refine h.congr fun before value => ?_
  rw [bindsLasting_concat_iff hlasts]
  exact or_iff_left fun hbind => hother value hbind.2

/-- Looking a name up behind a history finds what the history tells. -/
theorem tells_lookup (history : List Operation) (name : Name) :
    Tells history name ((behind history).lookup? name) := by
  induction history using history_induction with
  | new =>
    refine .unbound ?_
    rintro before value ⟨rest, hhistory, _⟩
    simp at hhistory
  | push history ih =>
    rw [behind_concat]
    exact ih.concat (lasts_push history) fun _ => nofun
  | bind history key value ih =>
    have hlasts := lasts_bind history key value
    rw [behind_concat]
    rcases perform_bind (behind history) key value with ⟨hkey, hsame⟩ | ⟨other, rfl, hbind⟩
    · rw [hsame]
      refine ih.concat hlasts fun found hfound => ?_
      exact hkey name (Operation.bind.inj hfound).1
    · rw [hbind]
      by_cases hname : other = name
      · subst hname
        rw [lookup?_bind_self]
        exact tells_bind history other value
      · rw [lookup?_bind_of_ne _ _ hname]
        refine ih.concat hlasts fun found hfound => hname ?_
        exact Datum.symbol.inj (Operation.bind.inj hfound).1
  | root history hframes ih =>
    rw [behind_root hframes]
    exact ih.concat (lasts_root hframes) fun _ => nofun
  | pop before middle hwithin ih =>
    rw [hwithin.behind_pop]
    exact ih.congr fun earlier value => hwithin.bindsLasting_iff

end Lookup

/-- Behind every history of entering and leaving frames and of binding names:

* a name means what it was bound to last, among the bindings whose frames have not been left since,
  and nothing if there are none;
* a frame can be left unless it is the only one, and leaving it leads back to the environment in
  which it was entered;
* a block in a frame of its own leaves all frames as it found them, wherever an exception is raised
  in it, and raises that exception. -/
theorem lookup_behind (history : List Operation) :
    (∀ name, Tells history name ((behind history).lookup? name)) ∧
      (∀ env, (behind history).pop = .ok env ↔
        ∃ before middle, history = before ++ .push :: middle ∧ Within before middle ∧
          env = behind before) ∧
      (framesBehind history = 1 →
        (behind history).pop = .error .rootFrame ∧ behind (history ++ [.pop]) = behind history) ∧
      ∀ (ε : Type) (failure : Error → ε) (body : List (Statement ε)) (env : Environment),
        env.scope failure (Statement.runAll failure body) =
          (Statement.ending (Statement.firstException? failure body), env) := by
  refine ⟨tells_lookup history, fun env => ⟨fun hpop => ?_, ?_⟩, fun hframes => ?_,
    fun ε failure body env => Statement.scope_block failure body env⟩
  · obtain ⟨before, middle, rfl, hwithin⟩ := exists_within (one_lt_framesBehind_of_pop hpop)
    rw [hwithin.pop] at hpop
    exact ⟨before, middle, rfl, hwithin, (Except.ok.inj hpop).symm⟩
  · rintro ⟨before, middle, rfl, hwithin, rfl⟩
    exact hwithin.pop
  · exact ⟨pop_root hframes, behind_root hframes⟩

end SmallScheme.Environment
