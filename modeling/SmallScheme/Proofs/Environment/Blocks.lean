import SmallScheme.Environment

/-!
# Blocks with frames of their own

A block binds names and holds other blocks, and it may be left by an exception wherever it stands.
Only the frame of the block itself is bound in, and that frame is left with the block, so a block
leaves no trace in the environment, and what is raised first is raised behind it (`scope_block`).
-/

namespace SmallScheme.Environment

/-- A block that changes no frame but its own leaves no trace. -/
theorem scope_of_outer_eq {ε α : Type} {failure : Error → ε}
    {block : Environment → Except ε α × Environment} {env : Environment}
    (h : (block env.push).2.outer = env.push.outer) :
    env.scope failure block = ((block env.push).1, env) := by
  rcases hrun : block env.push with ⟨outcome, after⟩
  rw [hrun] at h
  have houter : after.outer = env.innermost :: env.outer := h
  simp only [scope, hrun, pop, houter]

/-- What a block is made of: bindings, exceptions, and blocks in frames of their own. -/
inductive Statement (ε : Type) where
  | bind (key value : Datum)
  | raise (exception : ε)
  | block (body : List (Statement ε))

namespace Statement

variable {ε : Type}

mutual

/-- Runs a statement. Errors of the environment are raised as exceptions. -/
def run (failure : Error → ε) : Statement ε → Environment → Except ε Unit × Environment
  | .bind key value, env =>
    match env.bindSymbol key value with
    | .ok after => (.ok (), after)
    | .error error => (.error (failure error), env)
  | .raise exception, env => (.error exception, env)
  | .block body, env => env.scope failure (runAll failure body)

/-- Runs statements one by one, up to the first exception. -/
def runAll (failure : Error → ε) : List (Statement ε) → Environment → Except ε Unit × Environment
  | [], env => (.ok (), env)
  | statement :: rest, env =>
    match statement.run failure env with
    | (.ok (), after) => runAll failure rest after
    | (.error exception, after) => (.error exception, after)

end

mutual

/-- The exception that a statement raises: what is bound has to be a symbol. -/
def exception? (failure : Error → ε) : Statement ε → Option ε
  | .bind (.symbol _) _ => none
  | .bind key _ => some (failure (.notSymbol key))
  | .raise exception => some exception
  | .block body => firstException? failure body

/-- The exception that is raised first, however deep inside of blocks. -/
def firstException? (failure : Error → ε) : List (Statement ε) → Option ε
  | [] => none
  | statement :: rest => (statement.exception? failure).or (firstException? failure rest)

end

/-- How statements end that raise an exception, or none. -/
def ending (exception : Option ε) : Except ε Unit :=
  exception.elim (.ok ()) .error

mutual

/-- A statement ends with its exception, and changes no frame but the innermost one. -/
theorem run_eq (failure : Error → ε) (statement : Statement ε) (env : Environment) :
    (statement.run failure env).1 = ending (statement.exception? failure) ∧
      (statement.run failure env).2.outer = env.outer := by
  cases statement with
  | bind key value =>
    cases key <;> exact ⟨rfl, rfl⟩
  | raise exception => exact ⟨rfl, rfl⟩
  | block body =>
    obtain ⟨hending, houter⟩ := runAll_eq failure body env.push
    rw [run, scope_of_outer_eq houter]
    exact ⟨hending, rfl⟩

/-- Statements end with the exception that is raised first, and change no frame but the innermost
one. -/
theorem runAll_eq (failure : Error → ε) (body : List (Statement ε)) (env : Environment) :
    (runAll failure body env).1 = ending (firstException? failure body) ∧
      (runAll failure body env).2.outer = env.outer := by
  cases body with
  | nil => exact ⟨rfl, rfl⟩
  | cons statement rest =>
    obtain ⟨hending, houter⟩ := run_eq failure statement env
    rcases hrun : statement.run failure env with ⟨outcome, after⟩
    rw [hrun] at hending houter
    obtain rfl : outcome = ending (statement.exception? failure) := hending
    rw [runAll, firstException?, hrun]
    rcases statement.exception? failure with _ | exception
    · obtain ⟨hrest, hlater⟩ := runAll_eq failure rest after
      exact ⟨hrest, hlater.trans houter⟩
    · exact ⟨rfl, houter⟩

end

/-- A block leaves all frames as it found them, and behind it the exception that its statements
raise first is raised. -/
theorem scope_block (failure : Error → ε) (body : List (Statement ε)) (env : Environment) :
    env.scope failure (runAll failure body) = (ending (firstException? failure body), env) := by
  obtain ⟨hending, houter⟩ := runAll_eq failure body env.push
  rw [scope_of_outer_eq houter, hending]

end Statement

end SmallScheme.Environment
