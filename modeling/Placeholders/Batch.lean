import Placeholders.Engine.Expand

/-! Expansion of many strings, one after another, so that commands run in the order of the strings.
What happens to one string does not touch the others. -/

namespace Placeholders

namespace Engine

variable {σ : Type}

def expandEach (engine : Engine σ) (context : Context) : List Text → σ → List Expansion × σ
  | [], state => ([], state)
  | input :: inputs, state =>
    let (first, state) := engine.expand context input state
    let (rest, state) := expandEach engine context inputs state
    (first :: rest, state)

end Engine

/-- Hands out expansions one by one: the problems of each go behind those that the caller has, if
the caller keeps a list of them, and the outcome is what is handed back. -/
def deliver : List Expansion → Option ProblemList → List Outcome × Option ProblemList
  | [], sink => ([], sink)
  | expansion :: expansions, sink =>
    let (outcomes, sink) := deliver expansions (sink.map (· ++ expansion.problems))
    (expansion.outcome :: outcomes, sink)

namespace Engine

variable {σ : Type}

def expandOutcomes (engine : Engine σ) (context : Context) (inputs : List Text)
    (sink : Option ProblemList) (state : σ) : (List Outcome × Option ProblemList) × σ :=
  let (expansions, state) := engine.expandEach context inputs state
  (deliver expansions sink, state)

def expandStrings (engine : Engine σ) (context : Context) (inputs : List Text)
    (sink : Option ProblemList) (state : σ) : (List Text × Option ProblemList) × σ :=
  let ((outcomes, sink), state) := engine.expandOutcomes context inputs sink state
  ((outcomes.map (·.result), sink), state)

end Engine

structure Batch where
  expansions : List Expansion
  deriving DecidableEq, Repr

namespace Batch

def outcomes (batch : Batch) : List Outcome := batch.expansions.map (·.outcome)

def results (batch : Batch) : List Text := batch.expansions.map (·.outcome.result)

def stringProblems (batch : Batch) : List ProblemList := batch.expansions.map (·.problems)

def problems (batch : Batch) : ProblemList := batch.stringProblems.flatten

def isComplete (batch : Batch) : Bool :=
  batch.problems.isEmpty && batch.outcomes.all Outcome.isComplete

def incompleteCount (batch : Batch) : Nat := batch.outcomes.countP fun o => !o.isComplete

end Batch

def Engine.expandBatch {σ : Type} (engine : Engine σ) (context : Context) (inputs : List Text)
    (state : σ) : Batch × σ :=
  let (expansions, state) := engine.expandEach context inputs state
  (⟨expansions⟩, state)

/-- A batch holds one expansion for each string. -/
theorem Engine.length_expandEach {σ : Type} (engine : Engine σ) (context : Context)
    (inputs : List Text) (state : σ) :
    (engine.expandEach context inputs state).1.length = inputs.length := by
  induction inputs generalizing state with
  | nil => rfl
  | cons input inputs ih => simp [expandEach, ih]

end Placeholders
