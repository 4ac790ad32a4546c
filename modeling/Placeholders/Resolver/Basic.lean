import Placeholders.Context
import Placeholders.Environment
import Placeholders.Executor
import Placeholders.Pass
import Placeholders.Workspace

/-! Resolvers. A resolver reads the input of a pass and records what it knows in the pass. It may
change the world on the way, which is a state passed from one resolver to the next, and it may hit
a fault; then what it recorded so far stays in the pass. -/

namespace Placeholders

structure Resolved (σ : Type) where
  pass : Pass
  state : σ
  /-- The fault at which the resolver gave up. -/
  fault : Option Fault := none

/-- Records what one source of values knows about a pass. -/
structure Resolver (σ : Type) where
  name : Text
  resolve : Context → Pass → σ → Resolved σ

/-- The world outside a context: where values come from that the request does not give. -/
structure Services (σ : Type) where
  environment : Lookup
  normalize : Option Text → Text
  folders : List WorkspaceFolder
  execute : Executor σ

/-- A resolver that neither touches the world nor fails. -/
def Resolver.pure {σ : Type} (name : Text) (resolve : Context → Pass → Pass) : Resolver σ where
  name := name
  resolve := fun context pass state => ⟨resolve context pass, state, none⟩

end Placeholders
