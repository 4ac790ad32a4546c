import Placeholders.Text.Basic

/-! How an expansion ends: its status, the problems recorded on the way, and the reference that
was found to be circular. -/

namespace Placeholders

inductive Status where
  | complete
  | circularReference
  | maxRecursionReached
  | faulted
  deriving DecidableEq, Repr

inductive ProblemKind where
  | invalidReference
  | commandsDisabled
  | commandExecutionFailed
  | circularReference
  | maxRecursionReached
  | unexpectedFault
  deriving DecidableEq, Repr

def ProblemKind.message : ProblemKind → Text
  | .invalidReference => "invalid reference".toList
  | .commandsDisabled => "commands disabled".toList
  | .commandExecutionFailed => "command execution failed".toList
  | .circularReference => "circular reference".toList
  | .maxRecursionReached => "max recursion reached".toList
  | .unexpectedFault => "unexpected fault".toList

structure Problem where
  kind : ProblemKind
  detail : Text
  deriving DecidableEq, Repr

abbrev ProblemList := List Problem

namespace ProblemList

def push (problems : ProblemList) (kind : ProblemKind) (detail : Text) : ProblemList :=
  problems ++ [⟨kind, detail⟩]

def countKind (problems : ProblemList) (kind : ProblemKind) : Nat :=
  problems.countP fun p => p.kind = kind

def hasKind (problems : ProblemList) (kind : ProblemKind) : Bool :=
  problems.any fun p => p.kind = kind

end ProblemList

/-- A reference whose value names the reference itself. -/
structure CircularReference where
  key : Text
  /-- Literal of the token whose value led back to it. -/
  token : Text
  input : Text
  deriving DecidableEq, Repr

def CircularReference.message (c : CircularReference) : Text :=
  c.token ++ " in string: ".toList ++ c.input

structure Outcome where
  result : Text
  changed : Bool
  circular : Option CircularReference := none
  status : Status
  passes : Nat
  deriving DecidableEq, Repr

/-- The outcome of an expansion that hit a fault: the string is left as it was. -/
def Outcome.faulted (input : Text) : Outcome where
  result := input
  changed := false
  status := .faulted
  passes := 0

def Outcome.isComplete (o : Outcome) : Bool := o.status = .complete

end Placeholders
