import Placeholders.Variables

/-! What the expansion of a string depends on besides the string: tables of values and the
switches of the request. -/

namespace Placeholders

structure Context where
  vars : Variables
  /-- Replaces the process environment when present; a variable may be listed without a value. -/
  environmentOverride : Option (Table (Option Text)) := none
  /-- Values of build variants; without a table variants are left alone. -/
  variants : Option (Table Text) := none
  recursive : Bool := true
  commandsDisabled : Bool := false
  deriving DecidableEq

def Context.workspaceFolder (c : Context) : Text := c.vars.required .workspaceFolder

inductive Setting where
  | environmentOverride (table : Table (Option Text))
  | variants (table : Table Text)
  | recursive (on : Bool)
  | commandsDisabled (disabled : Bool)

namespace Context

/-- The context with one more choice, which replaces an earlier one of its kind. -/
def choose (context : Context) : Setting → Context
  | .environmentOverride table => { context with environmentOverride := some table }
  | .variants table => { context with variants := some table }
  | .recursive on => { context with recursive := on }
  | .commandsDisabled disabled => { context with commandsDisabled := disabled }

def build (entries : List (Text × Text)) (settings : List Setting) :
    Except MissingVariable Context :=
  (Variables.ofEntries entries).map fun vars => settings.foldl choose { vars := vars }

end Context
end Placeholders
