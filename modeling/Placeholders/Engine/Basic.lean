import Placeholders.Resolver.Values
import Placeholders.Resolver.Environment
import Placeholders.Resolver.Command

/-! An engine is a list of resolvers that take their turns in every pass. -/

namespace Placeholders

structure Engine (σ : Type) where
  resolvers : List (Resolver σ)

namespace Engine

variable {σ : Type}

def standard (services : Services σ) : Engine σ where
  resolvers :=
    [variableResolver,
     environmentResolver services.environment services.normalize,
     parentEnvironmentResolver services.environment services.normalize,
     workspaceFolderResolver services.folders,
     variantResolver,
     commandResolver services.execute]

def append (engine : Engine σ) (resolver : Resolver σ) : Engine σ :=
  ⟨engine.resolvers ++ [resolver]⟩

def names (engine : Engine σ) : List Text := engine.resolvers.map (·.name)

theorem names_standard (services : Services σ) :
    (standard services).names = Namespace.all.map Namespace.shortName := rfl

end Engine

/-- Lets resolvers take their turns until one hits a fault. -/
def resolveAll {σ : Type} (context : Context) : List (Resolver σ) → Pass → σ → Resolved σ
  | [], pass, state => ⟨pass, state, none⟩
  | resolver :: resolvers, pass, state =>
    let resolved := resolver.resolve context pass state
    match resolved.fault with
    | some _ => resolved
    | none => resolveAll context resolvers resolved.pass resolved.state

/-- One pass over a string: all resolvers, then all replacements, which are applied to that string
whatever the resolvers read. A fault discards the pass, but not what it did to the world. -/
def Engine.pass {σ : Type} (engine : Engine σ) (context : Context) (input : Text) (state : σ) :
    Except Fault FinishedPass × σ :=
  let resolved := resolveAll context engine.resolvers { input := input } state
  match resolved.fault with
  | some fault => (.error fault, resolved.state)
  | none => (.ok { resolved.pass with input := input }.finish, resolved.state)

end Placeholders
