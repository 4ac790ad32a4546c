import Placeholders.Context
import Placeholders.Workspace

/-! Requests: everything a caller writes down for one run. A request becomes a context when its
variables are complete; the home directory of the user fills in for a variable that is not given. -/

namespace Placeholders

structure Request where
  vars : Table Text := Table.empty
  environmentOverride : Option (Table (Option Text)) := none
  variants : Option (Table Text) := none
  recursive : Bool := true
  commandsDisabled : Bool := false
  folders : List WorkspaceFolder := []
  commands : Table Text := Table.empty
  strings : List Text := []
  deriving DecidableEq

namespace Request

/-- The variables of a request, with the home directory for a variable that is missing. -/
def variablesWith (request : Request) (home : Option Text) : Table Text :=
  match request.vars.get? Required.userHome.key, home with
  | none, some home => request.vars.insert Required.userHome.key home
  | _, _ => request.vars

def context? (request : Request) (home : Option Text) : Except MissingVariable Context :=
  (Variables.ofTable (request.variablesWith home)).map fun vars =>
    { vars := vars
      environmentOverride := request.environmentOverride
      variants := request.variants
      recursive := request.recursive
      commandsDisabled := request.commandsDisabled }

end Request
end Placeholders
