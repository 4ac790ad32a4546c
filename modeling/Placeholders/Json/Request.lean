import Placeholders.Json.Outcome
import Placeholders.Request

/-! JSON forms of variables, contexts and requests. A context writes its absent tables as null; a
request leaves them out. Every field of a request may be missing. -/

namespace Placeholders

namespace Variables

def toJson (vars : Variables) : Json := Json.ofTable Json.text vars.table

def ofJson? (value : Json) : Option Variables := do
  (ofTable (← Json.asTable? Json.asText? value)).toOption

end Variables

/-- The JSON form of an override: variables without a value are null. -/
def Json.ofOverride (table : Table (Option Text)) : Json :=
  Json.ofTable (Json.optional Json.text) table

def Json.asOverride? : Json → Option (Table (Option Text)) :=
  Json.asTable? (Json.asOptional? Json.asText?)

namespace Context

def toJson (context : Context) : Json :=
  .record
    [("variables".toList, context.vars.toJson),
     ("environment_override".toList, Json.optional Json.ofOverride context.environmentOverride),
     ("variants".toList, Json.optional (Json.ofTable Json.text) context.variants),
     ("recursive".toList, .bool context.recursive),
     ("commands_disabled".toList, .bool context.commandsDisabled)]

def ofJson? (value : Json) : Option Context := do
  let slots ← value.slots?
    ["variables".toList, "environment_override".toList, "variants".toList, "recursive".toList,
     "commands_disabled".toList]
  match slots with
  | [vars, environment, variants, recursive, disabled] =>
    return {
      vars := ← vars.required? Variables.ofJson?
      environmentOverride := ← environment.optional? Json.asOverride?
      variants := ← variants.optional? (Json.asTable? Json.asText?)
      recursive := ← recursive.required? Json.asBool?
      commandsDisabled := ← disabled.required? Json.asBool? }
  | _ => none

end Context

namespace Request

def fields : List Text :=
  ["variables".toList, "environment_override".toList, "variants".toList, "recursive".toList,
   "commands_disabled".toList, "workspace_folders".toList, "commands".toList, "strings".toList]

def toJson (request : Request) : Json :=
  .record <|
    [("variables".toList, Json.ofTable Json.text request.vars)]
    ++ (request.environmentOverride.map fun table =>
        ("environment_override".toList, Json.ofOverride table)).toList
    ++ (request.variants.map fun table =>
        ("variants".toList, Json.ofTable Json.text table)).toList
    ++ [("recursive".toList, .bool request.recursive),
        ("commands_disabled".toList, .bool request.commandsDisabled),
        ("workspace_folders".toList, .array (request.folders.map WorkspaceFolder.toJson)),
        ("commands".toList, Json.ofTable Json.text request.commands),
        ("strings".toList, .array (request.strings.map Json.text))]

def ofJson? (value : Json) : Option Request := do
  let slots ← value.slots? fields
  match slots with
  | [vars, environment, variants, recursive, disabled, folders, commands, strings] =>
    return {
      vars := ← vars.default? Table.empty (Json.asTable? Json.asText?)
      environmentOverride := ← environment.default? none (Json.asOptional? Json.asOverride?)
      variants := ← variants.default? none (Json.asOptional? (Json.asTable? Json.asText?))
      recursive := ← recursive.default? true Json.asBool?
      commandsDisabled := ← disabled.default? false Json.asBool?
      folders := ← folders.default? [] (Json.asList? WorkspaceFolder.ofJson?)
      commands := ← commands.default? Table.empty (Json.asTable? Json.asText?)
      strings := ← strings.default? [] (Json.asList? Json.asText?) }
  | _ => none

end Request
end Placeholders
