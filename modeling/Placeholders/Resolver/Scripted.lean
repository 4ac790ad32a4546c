import Placeholders.Resolver.Basic

/-! Resolvers and executors given as data. A scripted resolver is a list of actions, each with a
text that the input must contain; a scripted executor answers the calls of a name from a list of
outputs and keeps a log of all calls. -/

namespace Placeholders

namespace Scripted

inductive Effect where
  | substitute (literal replacement : Text)
  /-- Records a replacement unless the literal has one. -/
  | substituteIfAbsent (literal replacement : Text)
  | report (kind : ProblemKind) (detail : Text)
  | flagCircular (literal key : Text)
  | fail (fault : Fault)
  deriving DecidableEq, Repr

/-- An effect and the text that must occur in the input of the pass. -/
structure Action where
  guard : Text
  effect : Effect
  deriving DecidableEq, Repr

def occursIn (part : Text) : Text → Bool
  | [] => part.isEmpty
  | c :: text => part.isPrefixOf (c :: text) || occursIn part text

/-- Does what an effect says; a token flagged this way counts as a variable. -/
def Effect.perform : Effect → Pass → Pass × Option Fault
  | .substitute literal replacement, pass => (pass.substitute literal replacement, none)
  | .substituteIfAbsent literal replacement, pass =>
    if pass.isSubstituted literal then (pass, none)
    else (pass.substitute literal replacement, none)
  | .report kind detail, pass => (pass.report kind detail, none)
  | .flagCircular literal key, pass => (pass.flagCircular ⟨literal, .variable, key⟩, none)
  | .fail fault, pass => (pass, some fault)

def perform : List Action → Pass → Pass × Option Fault
  | [], pass => (pass, none)
  | action :: actions, pass =>
    if occursIn action.guard pass.input then
      match action.effect.perform pass with
      | (pass, none) => perform actions pass
      | (pass, some fault) => (pass, some fault)
    else perform actions pass

def resolver {σ : Type} (name : Text) (actions : List Action) : Resolver σ where
  name := name
  resolve := fun _ pass state => let (pass, fault) := perform actions pass; ⟨pass, state, fault⟩

structure Call where
  name : Text
  folder : Text
  deriving DecidableEq, Repr

/-- The outputs of commands in the order of the calls, `none` for a failing one. -/
abbrev Outputs := Table (List (Option Text))

/-- Answers the n-th call of a name with its n-th output, and later calls with the last one. A name
without outputs is unknown. The state is the list of all calls so far. -/
def executor (outputs : Outputs) : Executor (List Call) := fun name folder calls =>
  let earlier := calls.countP fun call => call.name = name
  let given := (outputs.get? name).getD []
  let answer := match given[min earlier (given.length - 1)]? with
    | none => .error (.unknown name)
    | some none => .error (.failed name [])
    | some (some output) => .ok output
  (answer, calls ++ [⟨name, folder⟩])

end Scripted
end Placeholders
