import Placeholders.Text.Basic

/-! Namespaces and tokens. A token is an occurrence of a placeholder: its literal spelling, the
namespace that gives it a value, and the key looked up there. -/

namespace Placeholders

inductive Namespace where
  | variable
  | environment
  | parentEnvironment
  | workspaceFolder
  | variant
  | command
  deriving DecidableEq, Repr

namespace Namespace

/-- All namespaces in the order in which they are resolved. -/
def all : List Namespace :=
  [.variable, .environment, .parentEnvironment, .workspaceFolder, .variant, .command]

def shortName : Namespace → Text
  | .variable => "variable".toList
  | .environment => "env".toList
  | .parentEnvironment => "penv".toList
  | .workspaceFolder => "workspaceFolder".toList
  | .variant => "variant".toList
  | .command => "command".toList

end Namespace

structure Token where
  /-- The text that stands in the input and is replaced. -/
  literal : Text
  ns : Namespace
  key : Text
  deriving DecidableEq, Repr

end Placeholders
