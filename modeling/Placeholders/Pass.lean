import Placeholders.Substitution
import Placeholders.Outcome

/-! One pass over a string. While it is open, resolvers record replacements and problems in it and
may flag a token as circular; when it is finished the replacements are applied to its input. -/

namespace Placeholders

structure Pass where
  /-- The string as it stood before the pass. -/
  input : Text
  substitution : Substitution := Table.empty
  circular : Option Token := none
  problems : ProblemList := []
  deriving DecidableEq

namespace Pass

/-- Records what replaces a literal; the last record for a literal counts. -/
def substitute (pass : Pass) (literal replacement : Text) : Pass :=
  { pass with substitution := pass.substitution.insert literal replacement }

def isSubstituted (pass : Pass) (literal : Text) : Bool := pass.substitution.contains literal

def report (pass : Pass) (kind : ProblemKind) (detail : Text) : Pass :=
  { pass with problems := ProblemList.push pass.problems kind detail }

def flagCircular (pass : Pass) (token : Token) : Pass := { pass with circular := some token }

@[simp] theorem input_substitute (pass : Pass) (literal replacement : Text) :
    (pass.substitute literal replacement).input = pass.input := rfl

@[simp] theorem input_report (pass : Pass) (kind : ProblemKind) (detail : Text) :
    (pass.report kind detail).input = pass.input := rfl

@[simp] theorem input_flagCircular (pass : Pass) (token : Token) :
    (pass.flagCircular token).input = pass.input := rfl

end Pass

/-- A pass whose replacements have been applied. -/
structure FinishedPass where
  input : Text
  result : Text
  changed : Bool
  circular : Option Token
  problems : ProblemList
  deriving DecidableEq, Repr

def Pass.finish (pass : Pass) : FinishedPass where
  input := pass.input
  result := (pass.substitution.apply pass.input).result
  changed := (pass.substitution.apply pass.input).changed
  circular := pass.circular
  problems := pass.problems

end Placeholders
