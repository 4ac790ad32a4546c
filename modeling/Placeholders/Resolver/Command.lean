import Placeholders.Resolver.Basic

/-! Placeholders for the output of commands. Within a pass each literal runs at most once, also
when it fails. A context that disables commands reports the first of them and runs none. -/

namespace Placeholders

variable {σ : Type}

/-- Runs the commands of tokens in order, except those that were `attempted` before or already
have a replacement. -/
def runCommands (execute : Executor σ) (folder : Text) :
    List Text → List Token → Pass → σ → Pass × σ
  | _, [], pass, state => (pass, state)
  | attempted, token :: tokens, pass, state =>
    if pass.isSubstituted token.literal || attempted.contains token.literal then
      runCommands execute folder attempted tokens pass state
    else
      match execute token.key folder state with
      | (.ok output, state) =>
        runCommands execute folder (token.literal :: attempted) tokens
          (pass.substitute token.literal output) state
      | (.error _, state) =>
        runCommands execute folder (token.literal :: attempted) tokens
          (pass.report .commandExecutionFailed token.literal) state

def refuseCommands (tokens : List Token) (pass : Pass) : Pass :=
  match tokens with
  | [] => pass
  | token :: _ => pass.report .commandsDisabled token.literal

def commandResolver (execute : Executor σ) : Resolver σ where
  name := Namespace.command.shortName
  resolve := fun context pass state =>
    let tokens := scan pass.input .command
    if context.commandsDisabled then ⟨refuseCommands tokens pass, state, none⟩
    else
      let (pass, state) := runCommands execute context.workspaceFolder [] tokens pass state
      ⟨pass, state, none⟩

end Placeholders
