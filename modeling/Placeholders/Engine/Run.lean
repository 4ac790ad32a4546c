import Placeholders.Engine.Basic

/-! Repeated passes over a string. A run is kept as the list of its passes and the reason why it
ended, and everything that is reported about an expansion is read off that list. -/

namespace Placeholders

def maxPasses : Nat := 10

inductive Ending where
  /-- Nothing was left to replace, or the context asks for one pass only. -/
  | complete
  /-- The last pass flagged a token as circular. -/
  | circular (token : Token)
  | capped
  | faulted (fault : Fault)
  deriving DecidableEq, Repr

structure Run where
  passes : List FinishedPass
  ending : Ending
  deriving DecidableEq, Repr

namespace Run

def cons (pass : FinishedPass) (run : Run) : Run := { run with passes := pass :: run.passes }

def text (run : Run) (input : Text) : Text :=
  match run.passes.getLast? with
  | none => input
  | some pass => pass.result

def changed (run : Run) : Bool := run.passes.any (·.changed)

def passProblems (run : Run) : ProblemList := run.passes.flatMap (·.problems)

def endProblems (run : Run) (input : Text) : ProblemList :=
  match run.ending with
  | .complete => []
  | .circular token => [⟨.circularReference, token.literal⟩]
  | .capped => [⟨.maxRecursionReached, run.text input⟩]
  | .faulted fault => [⟨.unexpectedFault, input ++ ": ".toList ++ fault.report⟩]

end Run

namespace Engine

variable {σ : Type}

/-- Passes over a string until there is a reason to end; `more` passes may follow the first. -/
def runFrom (engine : Engine σ) (context : Context) : Nat → Text → σ → Run × σ
  | more, input, state =>
    match engine.pass context input state with
    | (.error fault, state) => (⟨[], .faulted fault⟩, state)
    | (.ok pass, state) =>
      match pass.circular, more with
      | some token, _ => (⟨[pass], .circular token⟩, state)
      | none, 0 => (⟨[pass], .capped⟩, state)
      | none, more + 1 =>
        if context.recursive && pass.changed then
          let (run, state) := runFrom engine context more pass.result state
          (run.cons pass, state)
        else (⟨[pass], .complete⟩, state)

def run (engine : Engine σ) (context : Context) (input : Text) (state : σ) : Run × σ :=
  engine.runFrom context (maxPasses - 1) input state

end Engine

theorem Run.text_cons (pass : FinishedPass) (run : Run) (input : Text) :
    (run.cons pass).text input = run.text pass.result := by
  cases run with
  | mk passes ending => cases passes <;> simp [Run.text, Run.cons, List.getLast?_cons]

end Placeholders
