import Placeholders.Json.Request
import Placeholders.Yaml.Document
import Placeholders.Yaml.Record

/-! Requests written in YAML. They have the fields of requests in JSON, and a text without a
document is a request with no field given. -/

namespace Placeholders

def WorkspaceFolder.decodeYaml (document : Yaml.Document) (node : Yaml.Node) :
    Yaml.Decoder WorkspaceFolder := do
  let given ← document.asFields node
  if Yaml.Document.hasDistinct ["name".toList, "path".toList] given then
    return {
      name := ← Yaml.Document.required given "name" document.asText
      path := ← Yaml.Document.required given "path" document.asText }
  else failure

namespace Request

open Yaml.Document in
def decodeYaml (document : Yaml.Document) (node : Yaml.Node) : Yaml.Decoder Request := do
  let given ← document.asFields node
  if hasDistinct fields given then
    let texts := document.asTable document.asText
    return {
      vars := ← optional given "variables" Table.empty texts
      environmentOverride := ← optional given "environment_override" none
        (document.asOptional (document.asTable (document.asOptional document.asText)))
      variants := ← optional given "variants" none (document.asOptional texts)
      recursive := ← optional given "recursive" true document.asBool
      commandsDisabled := ← optional given "commands_disabled" false document.asBool
      folders := ← optional given "workspace_folders" []
        (document.asList (WorkspaceFolder.decodeYaml document))
      commands := ← optional given "commands" Table.empty texts
      strings := ← optional given "strings" [] (document.asList document.asText) }
  else failure

def ofYaml? (text : Text) : Option Request := do
  let document ← Yaml.Document.parse? text
  match document.root with
  | none => return {}
  | some root => (decodeYaml document root).run' document.maxJumps

end Request
end Placeholders
