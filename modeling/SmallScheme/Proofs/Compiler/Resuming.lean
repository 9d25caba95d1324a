import SmallScheme.Proofs.Assembly.Contents
import SmallScheme.Proofs.Compiler.Integers
import SmallScheme.Proofs.Lexer.Numerals

/-!
# Compiling again behind a refusal

A compiler that stops at a token can be started again, and goes on behind that token. However often
this is done, code and data are those of the tokens taken so far: a function for each integer and a
record for each float (`Made`). A token that is refused has been taken, so starting again comes to
the end of the text at last (`resumed_made`).
-/

namespace SmallScheme

open Assembly

/-- The integer that a lexeme is. -/
def Lexeme.integer? (lexeme : Lexeme) : Option Int :=
  match lexeme.token with
  | .ok (.literal (.integer value)) => some value
  | _ => none

/-- The float that a lexeme is. -/
def Lexeme.float? (lexeme : Lexeme) : Option Double :=
  match lexeme.token with
  | .ok (.literal (.float value)) => some value
  | _ => none

/-- The class of the error that a token without code is refused with. -/
def Token.refusal : Token → Error.Kind
  | .literal _ => .unsupportedLiteral
  | _ => .lexical

namespace Compiler

/-- The records of floats, numbered from zero on. -/
def floatRecords (values : List Double) : List Record :=
  values.zipIdx.map fun (value, index) => ⟨"LC_" ++ toString index, .literal (.float value)⟩

theorem functionName_injective : Function.Injective functionName := by
  intro index other h
  exact Nat.repr_inj.mp (String.append_right_inj functionStem |>.mp h)

theorem functionsLines_concat (start : Nat) (values : List Int) (value : Int) :
    functionsLines start (values ++ [value]) =
      functionsLines start values ++ functionLines (start + values.length) value := by
  simp [functionsLines, List.zipIdx_append]

theorem floatRecords_eq (values : List Double) :
    floatRecords values = recordsOf (values.map fun value => .literal (.float value)) := by
  simp [floatRecords, recordsOf, recordLabel, List.zipIdx_map]

/-- A builder of floats that stores another one. -/
theorem data_store_float {builder : Builder} {values : List Double} (value : Double)
    (h : builder.data.toList = floatRecords values) :
    (builder.store (.constant (.literal (.float value)))).2.data.toList =
      floatRecords (values ++ [value]) := by
  rw [floatRecords_eq] at h
  rw [floatRecords_eq, List.map_append]
  exact Builder.data_perform (.store (.constant (.literal (.float value)))) h

/-- Records of floats can always be written. -/
theorem exists_build_of_floats {builder : Builder} {values : List Double}
    (hexcess : builder.excess = 0) (hdata : builder.data.toList = floatRecords values) :
    ∃ assembly, builder.build = .ok assembly := by
  refine Builder.exists_build_iff.mpr ⟨hexcess, ?_⟩
  rw [hdata, floatRecords_eq, forall_constant_recordsOf, List.forall_mem_map]
  exact fun _ _ => trivial

/-- Having made the functions and records of the lexemes that were taken, and nothing else. -/
structure Made (taken : List Lexeme) (compiler : Compiler) : Prop where
  code : compiler.builder.code.toList = functionsLines 0 (taken.filterMap Lexeme.integer?)
  data : compiler.builder.data.toList = floatRecords (taken.filterMap Lexeme.float?)
  /-- Every function that was opened is left. -/
  excess : compiler.builder.excess = 0
  functions : compiler.functions = (taken.filterMap Lexeme.integer?).length

/-- How an attempt ends that takes these lexemes: it returns, having taken integers only, or stops
with an error that the token taken last decides. -/
inductive Outcome : List Lexeme → Except Fault Unit × Compiler → Prop
  | returns {taken : List Lexeme} {after : Compiler} :
      (∀ lexeme ∈ taken, lexeme.integer?.isSome) → after.tokens.pending = [] →
      Outcome taken (.ok (), after)
  | refuses {front : List Lexeme} {stopped : Lexeme} {token : Token} {error : Error}
      {after : Compiler} :
      (∀ lexeme ∈ front, lexeme.integer?.isSome) → stopped.integer? = none →
      stopped.token = .ok token → error.kind = token.refusal →
      after.tokens.position = stopped.stop →
      Outcome (front ++ [stopped]) (.error (.reported error), after)

variable {taken : List Lexeme} {lexeme : Lexeme} {compiler : Compiler}

theorem made_ofText (mode : Mode) (text : List Char) : Made [] (ofText mode text .empty) where
  code := rfl
  data := rfl
  excess := rfl
  functions := rfl

namespace Made

/-- What has been made does not depend on where the compiler stands. -/
theorem congr {after : Compiler} (h : Made taken compiler)
    (hbuilder : after.builder = compiler.builder)
    (hfunctions : after.functions = compiler.functions) : Made taken after where
  code := hbuilder ▸ h.code
  data := hbuilder ▸ h.data
  excess := hbuilder ▸ h.excess
  functions := hfunctions ▸ h.functions

theorem integer {value : Int} (h : Made taken compiler)
    (htoken : lexeme.token = .ok (.literal (.integer value))) (hfits : lexeme.Fits) :
    ∃ after, compiler.emitInteger value = (.ok (), after) ∧ Made (taken ++ [lexeme]) after := by
  obtain ⟨after, hemit, hfunctions, hadds⟩ := adds_emitInteger (hfits value htoken) compiler
  have hinteger : [lexeme].filterMap Lexeme.integer? = [value] := by simp [Lexeme.integer?, htoken]
  have hfloat : [lexeme].filterMap Lexeme.float? = [] := by simp [Lexeme.float?, htoken]
  refine ⟨after, hemit, ?_, ?_, ?_, ?_⟩
  · rw [hadds.code, h.code, h.functions, List.filterMap_append, hinteger, functionsLines_concat,
      Nat.zero_add]
  · rw [hadds.data, h.data, List.filterMap_append, hfloat, List.append_nil]
  · rw [hadds.excess, h.excess]
  · rw [hfunctions, List.filterMap_append, hinteger, List.length_append, ← h.functions]
    rfl

theorem float {value : Double} (h : Made taken compiler)
    (htoken : lexeme.token = .ok (.literal (.float value))) :
    Made (taken ++ [lexeme]) (compiler.emitFloat (.constant (.literal (.float value)))).2 := by
  have hinteger : [lexeme].filterMap Lexeme.integer? = [] := by simp [Lexeme.integer?, htoken]
  have hfloat : [lexeme].filterMap Lexeme.float? = [value] := by simp [Lexeme.float?, htoken]
  constructor
  · rw [List.filterMap_append, hinteger, List.append_nil]
    exact h.code
  · rw [List.filterMap_append, hfloat]
    exact data_store_float value h.data
  · exact h.excess
  · rw [List.filterMap_append, hinteger, List.append_nil]
    exact h.functions

/-- Nothing is made of any other token. -/
theorem other (h : Made taken compiler) (hinteger : lexeme.integer? = none)
    (hfloat : lexeme.float? = none) : Made (taken ++ [lexeme]) compiler := by
  have hintegers : [lexeme].filterMap Lexeme.integer? = [] := by simp [hinteger]
  have hfloats : [lexeme].filterMap Lexeme.float? = [] := by simp [hfloat]
  constructor
  · rw [List.filterMap_append, hintegers, List.append_nil, h.code]
  · rw [List.filterMap_append, hfloats, List.append_nil, h.data]
  · exact h.excess
  · rw [List.filterMap_append, hintegers, List.append_nil, h.functions]

/-- Functions and records of floats can always be written. -/
theorem exists_build (h : Made taken compiler) :
    ∃ assembly, compiler.builder.build = .ok assembly :=
  exists_build_of_floats h.excess h.data

end Made

theorem Outcome.returns_or_refuses {result : Except Fault Unit × Compiler}
    (h : Outcome taken result) :
    result.1 = .ok () ∨ (∃ error, result.1 = .error (.reported error)) ∧ taken ≠ [] := by
  cases h with
  | returns => exact Or.inl rfl
  | refuses => exact Or.inr ⟨⟨_, rfl⟩, List.concat_ne_nil _ _⟩

/-- An attempt may stop at its first token. -/
theorem Outcome.single {stopped : Lexeme} {token : Token} {error : Error} {after : Compiler}
    (hnone : stopped.integer? = none) (htoken : stopped.token = .ok token)
    (hkind : error.kind = token.refusal) (hposition : after.tokens.position = stopped.stop) :
    Outcome [stopped] (.error (.reported error), after) :=
  @Outcome.refuses [] stopped token error after (fun _ hmem => absurd hmem List.not_mem_nil)
    hnone htoken hkind hposition

/-- An integer in front does not change how an attempt ends. -/
theorem Outcome.cons {result : Except Fault Unit × Compiler} (h : Outcome taken result)
    (hinteger : lexeme.integer?.isSome) : Outcome (lexeme :: taken) result := by
  cases h with
  | returns hall hpending =>
    exact .returns (List.forall_mem_cons.mpr ⟨hinteger, hall⟩) hpending
  | refuses hall hnone htoken hkind hposition =>
    rw [← List.cons_append]
    exact .refuses (List.forall_mem_cons.mpr ⟨hinteger, hall⟩) hnone htoken hkind hposition

/-- An attempt takes lexemes from the front and makes what they call for. -/
theorem exists_outcome {lexemes : List Lexeme} (h : Made taken compiler)
    (hknown : ∀ lexeme ∈ lexemes, (∃ token, lexeme.token = .ok token) ∧ lexeme.Fits) :
    ∃ more, lexemes = more ++ (compileFrom lexemes compiler).2.tokens.pending ∧
      Made (taken ++ more) (compileFrom lexemes compiler).2 ∧
      Outcome more (compileFrom lexemes compiler) := by
  induction lexemes generalizing taken compiler with
  | nil =>
    refine ⟨[], rfl, ?_, .returns ?_ rfl⟩
    · rw [List.append_nil]
      exact h.congr rfl rfl
    · exact fun lexeme hmem => absurd hmem List.not_mem_nil
  | cons lexeme rest ih =>
    have hmoved : Made taken { compiler with
        tokens := { compiler.tokens with pending := rest, position := lexeme.stop } } :=
      h.congr rfl rfl
    obtain ⟨⟨token, htoken⟩, hfits⟩ := hknown lexeme List.mem_cons_self
    rw [compileFrom, htoken]
    cases token with
    | literal value =>
      cases value with
      | integer value =>
        obtain ⟨after, hemit, hafter⟩ := hmoved.integer htoken hfits
        obtain ⟨more, hmore, hmade, houtcome⟩ := ih hafter
          fun lexeme hmem => hknown lexeme (List.mem_cons_of_mem _ hmem)
        dsimp only
        rw [hemit]
        have hinteger : lexeme.integer?.isSome := by rw [Lexeme.integer?, htoken]; rfl
        refine ⟨lexeme :: more, ?_, ?_, houtcome.cons hinteger⟩
        · rw [List.cons_append]
          exact congrArg _ hmore
        · rwa [List.append_assoc] at hmade
      | float value =>
        have hinteger : lexeme.integer? = none := by rw [Lexeme.integer?, htoken]
        exact ⟨[lexeme], rfl, hmoved.float htoken, .single hinteger htoken rfl rfl⟩
      | boolean _ | character _ =>
        have hinteger : lexeme.integer? = none := by rw [Lexeme.integer?, htoken]
        have hfloat : lexeme.float? = none := by rw [Lexeme.float?, htoken]
        exact ⟨[lexeme], rfl, hmoved.other hinteger hfloat, .single hinteger htoken rfl rfl⟩
    | _ =>
      have hinteger : lexeme.integer? = none := by rw [Lexeme.integer?, htoken]
      have hfloat : lexeme.float? = none := by rw [Lexeme.float?, htoken]
      exact ⟨[lexeme], rfl, hmoved.other hinteger hfloat, .single hinteger htoken rfl rfl⟩

/-- The compiler of a text behind so many attempts, each of which goes on where the one before
stopped. -/
def resumed (mode : Mode) (text : List Char) : Nat → Compiler
  | 0 => ofText mode text .empty
  | attempts + 1 => (resumed mode text attempts).start.2

section

variable {text : List Char} (mode : Mode) (h : ¬ HasLongNumeral text)

include h

/-- An attempt goes on with things made of the lexemes taken before, and with all lexemes left. -/
theorem exists_outcome_resumed (attempts : Nat) :
    ∃ taken more, lexemes mode 0 text =
        taken ++ more ++ (resumed mode text (attempts + 1)).tokens.pending ∧
      (resumed mode text attempts).tokens.pending =
        more ++ (resumed mode text (attempts + 1)).tokens.pending ∧
      Made taken (resumed mode text attempts) ∧
      Made (taken ++ more) (resumed mode text (attempts + 1)) ∧
      Outcome more (resumed mode text attempts).start := by
  have hknown : ∀ lexeme ∈ lexemes mode 0 text,
      (∃ token, lexeme.token = .ok token) ∧ lexeme.Fits := known_of_mem_lexemes h
  induction attempts with
  | zero =>
    obtain ⟨more, hmore, hmade, houtcome⟩ := exists_outcome (made_ofText mode text) hknown
    exact ⟨[], more, hmore, hmore, made_ofText mode text, hmade, houtcome⟩
  | succ attempts ih =>
    obtain ⟨taken, more, hlexemes, _, _, hmade, _⟩ := ih
    obtain ⟨others, hothers, hmade', houtcome⟩ := exists_outcome hmade fun lexeme hmem =>
      hknown lexeme (hlexemes ▸ List.mem_append_right _ hmem)
    refine ⟨taken ++ more, others, ?_, hothers, hmade, hmade', houtcome⟩
    rw [hlexemes, List.append_assoc (taken ++ more)]
    exact congrArg _ hothers

/-- Each attempt that stops takes a lexeme, so after more attempts than there are lexemes one of
them has returned. -/
theorem returns_or_length_le (attempts : Nat) :
    (∃ earlier < attempts, (resumed mode text earlier).start.1 = .ok ()) ∨
      (resumed mode text attempts).tokens.pending.length + attempts ≤
        (lexemes mode 0 text).length := by
  induction attempts with
  | zero => exact Or.inr (Nat.le_refl _)
  | succ attempts ih =>
    rcases ih with ⟨earlier, hlt, hreturns⟩ | hlength
    · exact Or.inl ⟨earlier, Nat.lt_succ_of_lt hlt, hreturns⟩
    · obtain ⟨_, more, _, hpending, _, _, houtcome⟩ := exists_outcome_resumed mode h attempts
      rcases houtcome.returns_or_refuses with hreturns | ⟨_, hne⟩
      · exact Or.inl ⟨attempts, Nat.lt_succ_self attempts, hreturns⟩
      · have hpos := List.length_pos_iff.mpr hne
        rw [hpending, List.length_append] at hlength
        exact Or.inr (by omega)

end

/-- A compiler that is started again behind each refusal returns after no more attempts than there
are tokens. Before and behind each attempt it has made a function for each integer and a record for
each float that it has taken, in their order, and nothing is left open, so that the text of what it
has made can be built. The token that an attempt stops at decides the class of the error. -/
theorem resumed_made (mode : Mode) {text : List Char} (h : ¬ HasLongNumeral text) :
    (∃ attempts ≤ (lexemes mode 0 text).length, (resumed mode text attempts).start.1 = .ok () ∧
      ∀ earlier < attempts,
        ∃ error, (resumed mode text earlier).start.1 = .error (.reported error)) ∧
    ∀ attempts, ∃ taken more, lexemes mode 0 text =
        taken ++ more ++ (resumed mode text (attempts + 1)).tokens.pending ∧
      Made taken (resumed mode text attempts) ∧
      Made (taken ++ more) (resumed mode text (attempts + 1)) ∧
      Outcome more (resumed mode text attempts).start ∧
      (∃ assembly, (resumed mode text (attempts + 1)).builder.build = .ok assembly) ∧
      ((List.range (resumed mode text (attempts + 1)).functions).map functionName).Nodup := by
  constructor
  · classical
    obtain ⟨attempts, hlt, hreturns⟩ | hlength :=
      returns_or_length_le mode h ((lexemes mode 0 text).length + 1)
    · -- The first attempt that returns comes after attempts that stop.
      have hexists : ∃ attempts, (resumed mode text attempts).start.1 = .ok () :=
        ⟨attempts, hreturns⟩
      have hle : Nat.find hexists ≤ attempts := Nat.find_min' hexists hreturns
      refine ⟨Nat.find hexists, by omega, Nat.find_spec hexists, fun earlier hearlier => ?_⟩
      obtain ⟨_, _, _, _, _, _, houtcome⟩ := exists_outcome_resumed mode h earlier
      rcases houtcome.returns_or_refuses with hreturns | ⟨herror, _⟩
      · exact absurd hreturns (Nat.find_min hexists hearlier)
      · exact herror
    · omega
  · intro attempts
    obtain ⟨taken, more, hlexemes, _, hbefore, hafter, houtcome⟩ :=
      exists_outcome_resumed mode h attempts
    exact ⟨taken, more, hlexemes, hbefore, hafter, houtcome, hafter.exists_build,
      List.nodup_range.map functionName_injective⟩

/-- A float, a parenthesis and a boolean are refused one after the other, and the integers around
them are compiled all the same. -/
theorem resumed_made_refusals :
    let text := "1 2.5 (#t 30".toList
    ¬ HasLongNumeral text ∧
      (∃ attempts ≤ 5, (resumed .structural text attempts).start.1 = .ok ()) ∧
      ∃ taken, taken.map Lexeme.spelling =
          ["1".toList, "2.5".toList, "(".toList, "#t".toList, "30".toList] ∧
        Made taken (resumed .structural text 4) ∧
        (resumed .structural text 4).builder.code.toList = functionsLines 0 [1, 30] := by
  intro text
  have hshort : ¬ HasLongNumeral text := not_hasLongNumeral (by decide)
  have hspellings : (lexemes .structural 0 text).map Lexeme.spelling =
      ["1".toList, "2.5".toList, "(".toList, "#t".toList, "30".toList] := by
    with_unfolding_all rfl
  have hpending : (resumed .structural text 4).tokens.pending = [] := by with_unfolding_all rfl
  obtain ⟨⟨attempts, hle, hreturns, _⟩, hattempts⟩ := resumed_made .structural hshort
  obtain ⟨taken, more, hlexemes, _, hmade, _⟩ := hattempts 3
  have hcount := congrArg List.length hspellings
  rw [List.length_map] at hcount
  rw [hpending, List.append_nil] at hlexemes
  refine ⟨hshort, ⟨attempts, hle.trans hcount.le, hreturns⟩, taken ++ more,
    hlexemes ▸ hspellings, hmade, by with_unfolding_all rfl⟩

end Compiler

end SmallScheme
