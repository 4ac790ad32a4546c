import Placeholders.Text.Basic

/-! Commands as the expansion sees them: a name is executed in a folder and answers with a text or
an error. What an execution changes in the world is a state of any type, passed from one call to
the next. -/

namespace Placeholders

inductive CommandError where
  | unknown (name : Text)
  | failed (name : Text) (reason : Text)
  | io (reason : Text)
  deriving DecidableEq, Repr

def CommandError.message : CommandError → Text
  | .unknown name => "unknown command: ".toList ++ name
  | .failed name reason => "command '".toList ++ name ++ "' failed: ".toList ++ reason
  | .io reason => "I/O error: ".toList ++ reason

/-- Runs the command of a name in a folder. -/
abbrev Executor (σ : Type) := (name folder : Text) → σ → Except CommandError Text × σ

end Placeholders
