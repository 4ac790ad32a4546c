import Placeholders.Json.Record
import Placeholders.Outcome
import Placeholders.Token
import Placeholders.Workspace

/-! JSON forms of outcomes, problems, namespaces and workspace folders. For each type `toJson`
writes a value and `ofJson?` reads it. -/

namespace Placeholders

namespace Namespace

def name : Namespace → Text
  | .variable => "variable".toList
  | .environment => "environment".toList
  | .parentEnvironment => "parent_environment".toList
  | .workspaceFolder => "workspace_folder".toList
  | .variant => "variant".toList
  | .command => "command".toList

def toJson (ns : Namespace) : Json := .text ns.name

def ofJson? : Json → Option Namespace := Json.asChoice? all name

end Namespace

namespace Status

def all : List Status := [.complete, .circularReference, .maxRecursionReached, .faulted]

def name : Status → Text
  | .complete => "complete".toList
  | .circularReference => "circular_reference".toList
  | .maxRecursionReached => "max_recursion_reached".toList
  | .faulted => "faulted".toList

def toJson (status : Status) : Json := .text status.name

def ofJson? : Json → Option Status := Json.asChoice? all name

end Status

namespace ProblemKind

def all : List ProblemKind :=
  [.invalidReference, .commandsDisabled, .commandExecutionFailed, .circularReference,
   .maxRecursionReached, .unexpectedFault]

def name : ProblemKind → Text
  | .invalidReference => "invalid_reference".toList
  | .commandsDisabled => "commands_disabled".toList
  | .commandExecutionFailed => "command_execution_failed".toList
  | .circularReference => "circular_reference".toList
  | .maxRecursionReached => "max_recursion_reached".toList
  | .unexpectedFault => "unexpected_fault".toList

def toJson (kind : ProblemKind) : Json := .text kind.name

def ofJson? : Json → Option ProblemKind := Json.asChoice? all name

end ProblemKind

namespace Problem

def toJson (problem : Problem) : Json :=
  .record [("kind".toList, problem.kind.toJson), ("detail".toList, .text problem.detail)]

def ofJson? (value : Json) : Option Problem := do
  let slots ← value.slots? ["kind".toList, "detail".toList]
  match slots with
  | [kind, detail] =>
    return {
      kind := ← kind.required? ProblemKind.ofJson?
      detail := ← detail.required? Json.asText? }
  | _ => none

end Problem

namespace ProblemList

def toJson (problems : ProblemList) : Json :=
  .record [("entries".toList, .array (problems.map Problem.toJson))]

def ofJson? (value : Json) : Option ProblemList := do
  let slots ← value.slots? ["entries".toList]
  match slots with
  | [entries] => entries.required? (Json.asList? Problem.ofJson?)
  | _ => none

end ProblemList

namespace CircularReference

def toJson (circular : CircularReference) : Json :=
  .record
    [("key".toList, .text circular.key), ("token".toList, .text circular.token),
     ("input".toList, .text circular.input)]

def ofJson? (value : Json) : Option CircularReference := do
  let slots ← value.slots? ["key".toList, "token".toList, "input".toList]
  match slots with
  | [key, token, input] =>
    return {
      key := ← key.required? Json.asText?
      token := ← token.required? Json.asText?
      input := ← input.required? Json.asText? }
  | _ => none

end CircularReference

namespace Outcome

/-- The circular reference is left out where there is none. -/
def toJson (outcome : Outcome) : Json :=
  .record <|
    [("result".toList, .text outcome.result), ("changed".toList, .bool outcome.changed)]
    ++ (outcome.circular.map fun c => ("circular_reference".toList, c.toJson)).toList
    ++ [("status".toList, outcome.status.toJson), ("passes".toList, .natural outcome.passes)]

def ofJson? (value : Json) : Option Outcome := do
  let slots ← value.slots?
    ["result".toList, "changed".toList, "circular_reference".toList, "status".toList,
     "passes".toList]
  match slots with
  | [result, changed, circular, status, passes] =>
    return {
      result := ← result.required? Json.asText?
      changed := ← changed.required? Json.asBool?
      circular := ← circular.default? none (Json.asOptional? CircularReference.ofJson?)
      status := ← status.required? Status.ofJson?
      passes := ← passes.required? Json.asCount? }
  | _ => none

end Outcome

namespace WorkspaceFolder

def toJson (folder : WorkspaceFolder) : Json :=
  .record [("name".toList, .text folder.name), ("path".toList, .text folder.path)]

def ofJson? (value : Json) : Option WorkspaceFolder := do
  let slots ← value.slots? ["name".toList, "path".toList]
  match slots with
  | [name, path] =>
    return { name := ← name.required? Json.asText?, path := ← path.required? Json.asText? }
  | _ => none

end WorkspaceFolder
end Placeholders
