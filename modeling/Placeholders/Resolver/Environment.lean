import Placeholders.Resolver.Basic

/-! Placeholders for environment variables. The plain ones read the override of the context if it
has one, and stop at the first variable whose value names the variable itself; the others always
read the process and have no such guard. -/

namespace Placeholders

variable {σ : Type}

/-- Whether a value contains an environment placeholder for a key, in any spelling. -/
def refersToItself (value key : Text) : Bool :=
  (scan value .environment).any fun token => token.key = key

/-- Records the values of tokens in order, until a lookup fails or a value names its own key. -/
def resolveEnvironment (source : Lookup) (normalize : Option Text → Text) :
    List Token → Pass → Pass × Option Fault
  | [], pass => (pass, none)
  | token :: tokens, pass =>
    match source token.key with
    | .error fault => (pass, some fault)
    | .ok raw =>
      if refersToItself (normalize raw) token.key then (pass.flagCircular token, none)
      else resolveEnvironment source normalize tokens
        (pass.substitute token.literal (normalize raw))

def Context.environment (context : Context) (process : Lookup) : Lookup :=
  match context.environmentOverride with
  | some table => Lookup.ofOverride table
  | none => process

def environmentResolver (process : Lookup) (normalize : Option Text → Text) : Resolver σ where
  name := Namespace.environment.shortName
  resolve := fun context pass state =>
    let (pass, fault) := resolveEnvironment (context.environment process) normalize
      (scan pass.input .environment) pass
    ⟨pass, state, fault⟩

def resolveParentEnvironment (source : Lookup) (normalize : Option Text → Text) :
    List Token → Pass → Pass × Option Fault
  | [], pass => (pass, none)
  | token :: tokens, pass =>
    match source token.key with
    | .error fault => (pass, some fault)
    | .ok raw =>
      resolveParentEnvironment source normalize tokens
        (pass.substitute token.literal (normalize raw))

/-- Resolves variables of the process, whatever the context overrides. -/
def parentEnvironmentResolver (process : Lookup) (normalize : Option Text → Text) :
    Resolver σ where
  name := Namespace.parentEnvironment.shortName
  resolve := fun _ pass state =>
    let (pass, fault) := resolveParentEnvironment process normalize
      (scan pass.input .parentEnvironment) pass
    ⟨pass, state, fault⟩

end Placeholders
