import Placeholders.Environment
import Placeholders.Executor
import Placeholders.Shell.Run
import Placeholders.Text.Blank

/-! Commands given as shell command lines. A command runs in the workspace folder if that is a
folder; its output without the line ends at the end is its answer, and ending badly is a failure
that shows what it complained about. -/

namespace Placeholders.Shell

/-- The text that a command answers with: its output without line ends at the end. -/
def answerOf (output : Bytes) : Text :=
  Text.dropEndWhile (fun c => c == '\r' || c == '\n') (Text.Utf8.decodeLossy output)

def reasonOf (finished : Finished) : Text :=
  finished.ending.message ++ [':', ' '] ++ Text.trim (Text.Utf8.decodeLossy finished.messages)

def nulByte : CommandError := .io "nul byte found in provided data".toList

namespace System

def ofEnvironment (environment : ProcessEnvironment) : System where
  environment := Table.ofList (environment.vars.entries.map fun (name, value) =>
    (ofText name, ofBytes value))

def inFolder (system : System) (folder : Text) : System :=
  match system.folders.resolve? system.place (ofText folder) with
  | some place => { system with place := place }
  | none => system

def execute (system : System) (name folder line : Text) : Except CommandError Text :=
  if line.contains (Char.ofNat 0) then .error nulByte
  else
    let finished := (system.inFolder folder).run line
    if finished.ending.isSuccess then .ok (answerOf finished.output)
    else .error (.failed name (reasonOf finished))

def executor {σ : Type} (system : System) (commands : Table Text) : Executor σ :=
  fun name folder state =>
    match commands.get? name with
    | some line => (system.execute name folder line, state)
    | none => (.error (.unknown name), state)

end System
end Placeholders.Shell
