import Placeholders.Engine.Run

/-! Expansion of one string. The outcome is read off the run; a fault leaves the string as it was.
After the last pass, and only then, escapes turn into dollar signs. -/

namespace Placeholders

def Run.outcome? (run : Run) (input : Text) : Except Fault Outcome :=
  let finished (status : Status) (circular : Option CircularReference) : Outcome :=
    { result := Substitution.unescape (run.text input)
      changed := run.changed
      circular := circular
      status := status
      passes := run.passes.length }
  match run.ending with
  | .complete => .ok (finished .complete none)
  | .circular token =>
    .ok (finished .circularReference (some ⟨token.key, token.literal, input⟩))
  | .capped => .ok (finished .maxRecursionReached none)
  | .faulted fault => .error fault

/-- The outcome of a run; after a fault it is that of a string left alone. -/
def Run.outcome (run : Run) (input : Text) : Outcome :=
  match run.outcome? input with
  | .ok outcome => outcome
  | .error _ => .faulted input

def Run.problems (run : Run) (input : Text) : ProblemList :=
  run.passProblems ++ run.endProblems input

structure Expansion where
  outcome : Outcome
  problems : ProblemList
  deriving DecidableEq, Repr

namespace Engine

variable {σ : Type}

/-- Expands a string and hands a fault on to the caller, together with the problems of the passes
before it. -/
def tryExpand (engine : Engine σ) (context : Context) (input : Text) (state : σ) :
    (Except Fault Outcome × ProblemList) × σ :=
  let (run, state) := engine.run context input state
  match run.outcome? input with
  | .ok outcome => ((.ok outcome, run.problems input), state)
  | .error fault => ((.error fault, run.passProblems), state)

/-- Expands a string; a fault is one of the recorded problems. -/
def expand (engine : Engine σ) (context : Context) (input : Text) (state : σ) : Expansion × σ :=
  let (run, state) := engine.run context input state
  (⟨run.outcome input, run.problems input⟩, state)

def tryExpandInto (engine : Engine σ) (context : Context) (input : Text) (problems : ProblemList)
    (state : σ) : (Except Fault Outcome × ProblemList) × σ :=
  let ((outcome, recorded), state) := engine.tryExpand context input state
  ((outcome, problems ++ recorded), state)

def expandInto (engine : Engine σ) (context : Context) (input : Text) (sink : Option ProblemList)
    (state : σ) : (Outcome × Option ProblemList) × σ :=
  let (expansion, state) := engine.expand context input state
  ((expansion.outcome, sink.map (· ++ expansion.problems)), state)

theorem expand_eq (engine : Engine σ) (context : Context) (input : Text) (state : σ) :
    engine.expand context input state =
      (⟨(engine.run context input state).1.outcome input,
        (engine.run context input state).1.problems input⟩,
        (engine.run context input state).2) := by
  rw [expand]

end Engine

end Placeholders
