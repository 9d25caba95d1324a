import SmallScheme.Proofs.Evaluation.Closure
import SmallScheme.Proofs.Interpreter.Invariants
import SmallScheme.Proofs.Reader.Reached
import SmallScheme.Proofs.Reader.Sequences

/-!
# What sessions yield

Texts are interpreted one after the other in an environment that outlives them. Each expression that
is read is a written one, and each evaluation leads from written expressions and computed values to
computed values, so whatever the texts are and however their runs end, nothing else is ever returned
or bound.
-/

namespace SmallScheme

/-- What holds of whatever is read next holds of all that is read. -/
theorem TokenStream.Reached.forall_readAll {limits : Limits} {stream : TokenStream}
    (h : Reached limits stream) {holds : Datum → Prop}
    (hnext : ∀ stream after datum, Reached limits stream →
      stream.read limits = (.ok datum, after) → holds datum) :
    ∀ datum ∈ (stream.readAll limits).1, holds datum := by
  induction stream using TokenStream.readAll_induction limits with
  | finished stream hpending =>
    rw [readAll_of_nil hpending]
    exact fun datum hdatum => absurd hdatum List.not_mem_nil
  | stopped stream fault after hpending hread =>
    rw [readAll_of_fault hpending hread]
    exact fun datum hdatum => absurd hdatum List.not_mem_nil
  | read stream first after hread ih =>
    have hafter : Reached limits after := by
      have hstep := h.read
      rwa [hread] at hstep
    rw [readAll_of_read hread]
    exact List.forall_mem_cons.mpr ⟨hnext stream after first h hread, ih hafter⟩

namespace Program

variable {limits : Limits} {text : List Char}

/-- What holds of whatever is read next holds of the expressions of a program. -/
theorem forall_expressions {holds : Datum → Prop}
    (hnext : ∀ stream after datum, TokenStream.Reached limits stream →
      stream.read limits = (.ok datum, after) → holds datum) :
    ∀ expression ∈ (Program.ofText limits text).expressions, holds expression :=
  (TokenStream.Reached.start (Cursor.ofText .structural text) text.length).forall_readAll hnext

/-- The expressions of a program are written. -/
theorem written_of_mem :
    ∀ expression ∈ (Program.ofText limits text).expressions, expression.Written :=
  forall_expressions fun _ _ _ h hread => ⟨(h.readable hread).1, (h.readable hread).2⟩

/-- The expressions of a program are nested no more deeply than can be read. -/
theorem depth_le_of_mem :
    ∀ expression ∈ (Program.ofText limits text).expressions, expression.depth ≤ limits.reading :=
  forall_expressions fun _ _ _ h hread => (h.exists_begins hread).1

end Program

namespace Interpreter

variable {limits : Limits}

/-- Evaluations lead from what is written to computed values, or to expected errors. -/
theorem invariant_computed (limits : Limits) :
    Invariant limits Datum.Written Environment.Computed Datum.Computed Fault.Expected :=
  Simulation.invariant_computed.outside (fun _ => Error.Expected.writable) limits

/-- What is written evaluates to a computed value, if to any, and binds no others. -/
theorem evaluate_computed (limits : Limits) {expression : Datum} {env : Environment}
    (hexpression : expression.Written) (henv : env.Computed) :
    (∀ value, (evaluate limits expression env).1 = .ok value → value.Computed) ∧
      (evaluate limits expression env).2.Computed :=
  ⟨fun _ => (invariant_computed limits).value hexpression henv,
    (invariant_computed limits).environment hexpression henv⟩

/-- All values of a text are computed, and so are all that it binds. -/
theorem evaluateAll_computed (text : List Char) {env : Environment} (henv : env.Computed) :
    (∀ value ∈ (evaluateAll limits text env).results, value.Computed) ∧
      (evaluateAll limits text env).environment.Computed := by
  have hwritten : ∀ expression ∈ (Program.ofText limits text).expressions, expression.Written :=
    Program.written_of_mem
  have hcollect : ∀ value fault, Datum.Computed value → Except.ok value = .error fault →
      Fault.Expected fault := nofun
  constructor
  · exact (invariant_computed limits).results
      (fun value result hvalue hresult => Except.ok.inj hresult ▸ hvalue) _ hwritten henv
  · exact ((invariant_computed limits).run hcollect _ hwritten henv).2

/-- The value of a text as a whole is its last value, or the empty list. -/
theorem computed_of_interpret {text : List Char} {env : Environment} (henv : env.Computed)
    {value : Datum} (h : (interpret limits text env).1 = .ok value) : value.Computed := by
  have hvalues : ∀ value ∈ (evaluateAll limits text env).results, value.Computed :=
    (evaluateAll_computed text henv).1
  change outcome (evaluateAll limits text env) = .ok value at h
  unfold outcome at h
  split at h
  · cases h
  · cases h
    rw [List.getLastD_eq_getLast?]
    cases hlast : (evaluateAll limits text env).results.getLast? with
    | none => exact .list fun item hitem => absurd hitem List.not_mem_nil
    | some value => exact hvalues value (List.mem_of_getLast? hlast)

/-- The environment behind texts that are interpreted one after the other, each to its end or to a
fault. -/
def behind (limits : Limits) (texts : List (List Char)) (env : Environment) : Environment :=
  texts.foldl (fun env text => (interpret limits text env).2) env

theorem behind_computed (texts : List (List Char)) {env : Environment} (henv : env.Computed) :
    (behind limits texts env).Computed := by
  induction texts generalizing env with
  | nil => exact henv
  | cons text texts ih => exact ih (evaluateAll_computed text henv).2

/-- Whatever texts have been interpreted one after the other in a new environment, and however each
of them has ended: all frames bind names to computed values only, so that a name has no value just
if no frame binds it, and the values of a further text are computed. Inside of a text, too, what is
written evaluates to computed values, and leaves only such in the frames of the calls around it. -/
theorem interpret_yields_computed (limits : Limits) (texts : List (List Char)) :
    let env := behind limits texts .empty
    (∀ frame ∈ env.frames, ∀ binding ∈ frame, binding.value.Computed) ∧
      (∀ name, env.lookup? name = none ↔
        ∀ frame ∈ env.frames, ∀ binding ∈ frame, binding.name ≠ name) ∧
      (∀ text, (∀ value ∈ (evaluateAll limits text env).results, value.Computed) ∧
        ∀ value, (interpret limits text env).1 = .ok value → value.Computed) ∧
      ∀ (expression : Datum) (inner : Environment), expression.Written → inner.Computed →
        (∀ value, (evaluate limits expression inner).1 = .ok value → value.Computed) ∧
          (evaluate limits expression inner).2.Computed := by
  intro env
  have henv : env.Computed := behind_computed texts Environment.computed_empty
  refine ⟨henv, henv.lookup?_eq_none_iff, fun text => ⟨?_, fun value hvalue => ?_⟩, ?_⟩
  · exact (evaluateAll_computed text henv).1
  · exact computed_of_interpret henv hvalue
  · exact fun expression inner hexpression hinner => evaluate_computed limits hexpression hinner

end Interpreter

end SmallScheme
