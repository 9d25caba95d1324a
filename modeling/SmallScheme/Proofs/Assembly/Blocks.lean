import SmallScheme.Proofs.Assembly.Contents

/-!
# Programs with function blocks

A program adds to a builder, and opens functions with blocks only. Exceptions may be raised anywhere
in it, by a constant that is refused or a move that has no text among others, and may be caught
around any piece of it. What such a program does can be said without a builder: it is a tree of
events, in which each block was either completed or abandoned (`Statement.traceAll`). The builder
behind the program holds what the events say, and one function is left open for each abandoned block
(`runAll_abandoned`).
-/

namespace SmallScheme.Assembly

/-- What a program over a builder is made of. -/
inductive Statement (ε : Type) where
  | add (code : String)
  | move (instruction : Move)
  | store (offer : Offer)
  | raise (exception : ε)
  /-- Runs statements inside of a function. -/
  | block (name : String) (body : List (Statement ε))
  /-- Runs statements, and others if they raise an exception that is caught. -/
  | attempt (body : List (Statement ε)) (catches : ε → Bool) (handler : List (Statement ε))

/-- What a program has done: the code and the constants that it has added, and the blocks that it
has entered, with what was done inside. -/
inductive Event where
  | line (code : String)
  | constant (value : Constant)
  /-- A block that came to its end. -/
  | completed (name : String) (inner : List Event)
  /-- A block that was left by an exception. -/
  | abandoned (name : String) (inner : List Event)

namespace Event

mutual

/-- What an event tells a builder to do. A function is opened for every block, and left behind the
contents of the block if that was completed. -/
def operations : Event → List Operation
  | .line code => [.add code]
  | .constant value => [.store (.constant value)]
  | .completed name inner => .openFunction name :: (operationsAll inner ++ [.leaveFunction])
  | .abandoned name inner => .openFunction name :: operationsAll inner

/-- What events tell a builder to do, one after the other. -/
def operationsAll : List Event → List Operation
  | [] => []
  | event :: rest => event.operations ++ operationsAll rest

end

mutual

/-- The number of abandoned blocks in an event, at any depth. -/
def abandonedBlocks : Event → Nat
  | .line _ | .constant _ => 0
  | .completed _ inner => abandonedBlocksAll inner
  | .abandoned _ inner => abandonedBlocksAll inner + 1

/-- The number of abandoned blocks in events, at any depth. -/
def abandonedBlocksAll : List Event → Nat
  | [] => 0
  | event :: rest => event.abandonedBlocks + abandonedBlocksAll rest

end

/-- The code lines of events. -/
def linesAll (events : List Event) : List String :=
  (operationsAll events).flatMap Operation.lines

/-- The constants of events. -/
def constantsAll (events : List Event) : List Constant :=
  (operationsAll events).flatMap Operation.constants

/-- Being one of the events, at any depth. -/
inductive Occurs (event : Event) : List Event → Prop
  | head {rest : List Event} : Occurs event (event :: rest)
  | tail {other : Event} {rest : List Event} : Occurs event rest → Occurs event (other :: rest)
  | completed {name : String} {inner rest : List Event} :
      Occurs event inner → Occurs event (.completed name inner :: rest)
  | abandoned {name : String} {inner rest : List Event} :
      Occurs event inner → Occurs event (.abandoned name inner :: rest)

theorem operationsAll_append (front back : List Event) :
    operationsAll (front ++ back) = operationsAll front ++ operationsAll back := by
  induction front with
  | nil => rfl
  | cons event front ih =>
    rw [List.cons_append, operationsAll, ih, operationsAll, List.append_assoc]

theorem opened_openFunction (name : String) (rest : List Operation) :
    opened (.openFunction name :: rest) = opened rest + 1 :=
  opened_cons _ rest

theorem left_openFunction (name : String) (rest : List Operation) :
    left (.openFunction name :: rest) = left rest :=
  left_cons _ rest

theorem operationsAll_singleton (event : Event) : operationsAll [event] = event.operations :=
  List.append_nil _

mutual

/-- The functions that are opened and not left are those of abandoned blocks. -/
theorem opened_operations (event : Event) :
    opened event.operations = left event.operations + event.abandonedBlocks := by
  cases event with
  | line _ | constant _ => rfl
  | completed name inner =>
    have hinner := opened_operationsAll inner
    have hopened : opened [.leaveFunction] = 0 := rfl
    have hleft : left [.leaveFunction] = 1 := rfl
    rw [operations, opened_openFunction, left_openFunction, opened_append, left_append,
      abandonedBlocks, hinner, hopened, hleft]
    omega
  | abandoned name inner =>
    have hinner := opened_operationsAll inner
    rw [operations, opened_openFunction, left_openFunction, abandonedBlocks, hinner]
    omega

theorem opened_operationsAll (events : List Event) :
    opened (operationsAll events) = left (operationsAll events) + abandonedBlocksAll events := by
  cases events with
  | nil => rfl
  | cons event rest =>
    have hevent := opened_operations event
    have hrest := opened_operationsAll rest
    rw [operationsAll, abandonedBlocksAll, opened_append, left_append, hevent, hrest]
    omega

end

/-- What an event tells a builder to do is done in one piece. -/
theorem Occurs.exists_operations {event : Event} {events : List Event} (h : Occurs event events) :
    ∃ front back, operationsAll events = front ++ event.operations ++ back := by
  induction h with
  | @head rest => exact ⟨[], operationsAll rest, rfl⟩
  | @tail other _ _ ih =>
    obtain ⟨front, back, hrest⟩ := ih
    exact ⟨other.operations ++ front, back, by simp [operationsAll, hrest]⟩
  | @completed name inner rest _ ih =>
    obtain ⟨front, back, hinner⟩ := ih
    exact ⟨.openFunction name :: front, back ++ .leaveFunction :: operationsAll rest,
      by simp [operationsAll, operations, hinner]⟩
  | @abandoned name inner rest _ ih =>
    obtain ⟨front, back, hinner⟩ := ih
    exact ⟨.openFunction name :: front, back ++ operationsAll rest,
      by simp [operationsAll, operations, hinner]⟩

theorem Occurs.exists_lines {event : Event} {events : List Event} (h : Occurs event events) :
    ∃ front back, linesAll events = front ++ linesAll [event] ++ back := by
  obtain ⟨front, back, hoperations⟩ := h.exists_operations
  refine ⟨front.flatMap Operation.lines, back.flatMap Operation.lines, ?_⟩
  rw [linesAll, linesAll, hoperations, operationsAll_singleton, List.flatMap_append,
    List.flatMap_append]

theorem linesAll_completed (name : String) (inner : List Event) :
    linesAll [.completed name inner] = openingLines name ++ linesAll inner ++ ["ret"] := by
  simp [linesAll, operationsAll, operations, Operation.lines]

end Event

namespace Statement

open Event

variable {ε : Type}

mutual

/-- Runs a statement. The faults of the builder are raised as exceptions. -/
def run (failure : Fault → ε) : Statement ε → Builder → Except ε Unit × Builder
  | .add code, builder => (.ok (), builder.add code)
  | .move instruction, builder =>
    match builder.move instruction with
    | (.ok _, after) => (.ok (), after)
    | (.error fault, after) => (.error (failure fault), after)
  | .store offer, builder =>
    match builder.store offer with
    | (.ok _, after) => (.ok (), after)
    | (.error error, after) => (.error (failure (.reported error)), after)
  | .raise exception, builder => (.error exception, builder)
  | .block name body, builder => builder.function name (runAll failure body)
  | .attempt body catches handler, builder =>
    match runAll failure body builder with
    | (.ok (), after) => (.ok (), after)
    | (.error exception, after) =>
      if catches exception then runAll failure handler after else (.error exception, after)

/-- Runs statements one by one, up to the first exception. -/
def runAll (failure : Fault → ε) : List (Statement ε) → Builder → Except ε Unit × Builder
  | [], builder => (.ok (), builder)
  | statement :: rest, builder =>
    match statement.run failure builder with
    | (.ok (), after) => runAll failure rest after
    | (.error exception, after) => (.error exception, after)

end

mutual

/-- How a statement ends, and what it has done by then. -/
def trace (failure : Fault → ε) : Statement ε → Except ε Unit × List Event
  | .add code => (.ok (), [.line code])
  | .move instruction =>
    match instruction.text with
    | .ok code => (.ok (), [.line code])
    | .error fault => (.error (failure fault), [])
  | .store offer =>
    match offer.accept with
    | .ok value => (.ok (), [.constant value])
    | .error error => (.error (failure (.reported error)), [])
  | .raise exception => (.error exception, [])
  | .block name body =>
    match traceAll failure body with
    | (.ok (), inner) => (.ok (), [.completed name inner])
    | (.error exception, inner) => (.error exception, [.abandoned name inner])
  | .attempt body catches handler =>
    match traceAll failure body with
    | (.ok (), events) => (.ok (), events)
    | (.error exception, events) =>
      if catches exception then
        let (outcome, more) := traceAll failure handler
        (outcome, events ++ more)
      else (.error exception, events)

/-- How statements end, and what they have done by then. -/
def traceAll (failure : Fault → ε) : List (Statement ε) → Except ε Unit × List Event
  | [] => (.ok (), [])
  | statement :: rest =>
    match statement.trace failure with
    | (.ok (), events) =>
      let (outcome, more) := traceAll failure rest
      (outcome, events ++ more)
    | (.error exception, events) => (.error exception, events)

end

mutual

/-- A statement ends as its trace says, and does to a builder what the events say. -/
theorem run_eq (failure : Fault → ε) (statement : Statement ε) (builder : Builder) :
    statement.run failure builder =
      ((statement.trace failure).1,
        builder.behind (operationsAll (statement.trace failure).2)) := by
  cases statement with
  | add code | raise exception => rfl
  | move instruction =>
    rw [run, Builder.move, trace]
    cases instruction.text <;> rfl
  | store offer =>
    rw [run, Builder.store, trace]
    cases offer.accept <;> rfl
  | block name body =>
    rw [run, Builder.function, runAll_eq failure body, trace]
    rcases traceAll failure body with ⟨exception | ⟨⟩, inner⟩
    · rw [operationsAll_singleton]
      rfl
    · rw [operationsAll_singleton, operations, ← List.cons_append, Builder.behind_append]
      rfl
  | attempt body catches handler =>
    rw [run, runAll_eq failure body, trace]
    rcases traceAll failure body with ⟨exception | ⟨⟩, events⟩
    · dsimp only
      split
      · rw [runAll_eq failure handler, operationsAll_append, Builder.behind_append]
      · rfl
    · rfl

/-- Statements end as their trace says, and do to a builder what the events say. -/
theorem runAll_eq (failure : Fault → ε) (body : List (Statement ε)) (builder : Builder) :
    runAll failure body builder =
      ((traceAll failure body).1, builder.behind (operationsAll (traceAll failure body).2)) := by
  cases body with
  | nil => rfl
  | cons statement rest =>
    rw [runAll, run_eq failure statement, traceAll]
    rcases statement.trace failure with ⟨exception | ⟨⟩, events⟩
    · rfl
    · dsimp only
      rw [runAll_eq failure rest, operationsAll_append, Builder.behind_append]

end

/-- Behind a program on a new builder, one function is left open for each block that an exception
has left, at whatever depth and whether it was caught or not. The code is that of the events: a
block that was completed stands in it as the three lines that open its function, its contents and
one return. There is a text just if no block was abandoned and every constant that was accepted can
be written. -/
theorem runAll_abandoned (failure : Fault → ε) (body : List (Statement ε)) :
    let outcome := (traceAll failure body).1
    let events := (traceAll failure body).2
    let builder := (runAll failure body .empty).2
    (runAll failure body .empty).1 = outcome ∧
      builder.excess = abandonedBlocksAll events ∧
      builder.code.toList = linesAll events ∧
      builder.data.toList = recordsOf (constantsAll events) ∧
      (∀ name inner, Occurs (.completed name inner) events → ∃ front back,
        builder.code.toList =
          front ++ openingLines name ++ linesAll inner ++ ["ret"] ++ back) ∧
      ((∃ text, builder.build = .ok text) ↔
        abandonedBlocksAll events = 0 ∧ ∀ constant ∈ constantsAll events, constant.Writable) := by
  intro outcome events builder
  have hrun : runAll failure body .empty =
      (outcome, Builder.empty.behind (operationsAll events)) := runAll_eq failure body .empty
  have hbuilder : builder = Builder.empty.behind (operationsAll events) := congrArg Prod.snd hrun
  have hexcess : builder.excess = abandonedBlocksAll events := by
    have hopened := opened_operationsAll events
    have hempty : Builder.empty.excess = 0 := rfl
    rw [hbuilder, Builder.excess_behind]
    omega
  have hcode : builder.code.toList = linesAll events := by
    rw [hbuilder, Builder.code_behind_empty, linesAll]
  have hdata : builder.data.toList = recordsOf (constantsAll events) := by
    rw [hbuilder, Builder.data_behind_empty, constantsAll]
  refine ⟨congrArg Prod.fst hrun, hexcess, hcode, hdata, fun name inner hoccurs => ?_, ?_⟩
  · obtain ⟨front, back, hlines⟩ := hoccurs.exists_lines
    refine ⟨front, back, ?_⟩
    rw [hcode, hlines, linesAll_completed]
    simp only [List.append_assoc]
  · rw [Builder.exists_build_iff, hexcess, hdata, forall_constant_recordsOf, Int.natCast_eq_zero]

/-- A constant is refused in a block, which is left, and the error is caught in the block around it,
which is completed. So one function is left open, and there is no text. -/
theorem runAll_abandoned_caught :
    let body : List (Statement Fault) :=
      [.block "f" [.attempt [.block "g" [.add "nop", .store (.other "Token(EOF)")]] (fun _ => true)
        [.add "leave"]]]
    let inner : List Event := [.abandoned "g" [.line "nop"], .line "leave"]
    Occurs (.completed "f" inner) (traceAll id body).2 ∧
      (runAll id body .empty).1 = .ok () ∧ (runAll id body .empty).2.excess = 1 ∧
      (∃ front back, (runAll id body .empty).2.code.toList =
        front ++ openingLines "f" ++ linesAll inner ++ ["ret"] ++ back) ∧
      ¬ ∃ text, (runAll id body .empty).2.build = .ok text := by
  intro body inner
  have hoccurs : Occurs (.completed "f" inner) (traceAll id body).2 := .head
  obtain ⟨houtcome, hexcess, _, _, hcompleted, hbuild⟩ := runAll_abandoned id body
  refine ⟨hoccurs, houtcome, hexcess, hcompleted "f" inner hoccurs, fun htext => ?_⟩
  exact absurd (hbuild.mp htext).1 (by decide)

/-- A program without blocks whose builder has no text: a character constant of two characters is
accepted, but it cannot be written. -/
theorem runAll_unwritable :
    let body : List (Statement Fault) := [.store (.constant (.literal (.character "ab")))]
    abandonedBlocksAll (traceAll id body).2 = 0 ∧
      (runAll id body .empty).1 = .ok () ∧ (runAll id body .empty).2.excess = 0 ∧
      (runAll id body .empty).2.build = .error (.notOneCharacter 2) := by
  refine ⟨rfl, rfl, rfl, ?_⟩
  with_unfolding_all rfl

end Statement

end SmallScheme.Assembly
