import Placeholders.Table
import Placeholders.Yaml.Node

/-! Reading records, tables, lists and texts out of YAML nodes. The reader's wish decides what a
scalar is: where a text is wanted every scalar is one, as it is written. Where a collection is
wanted an empty plain scalar is an empty one. Aliases are followed where they are met, and only so
often in a document. -/

namespace Placeholders.Yaml

def isNullWord (value : Text) : Bool :=
  ["null".toList, "Null".toList, "NULL".toList, ['~']].contains value

def standardTag (name : String) : Bytes :=
  Text.Utf8.encode ("tag:yaml.org,2002:" ++ name).toList

/-- Reading of a node, with the number of aliases that may still be followed. -/
abbrev Decoder (α : Type) := StateT Nat Option α

namespace Document

variable {α : Type}

def resolve (document : Document) : Node → Decoder Node
  | .alias target => do
    match ← get with
    | 0 => failure
    | left + 1 =>
      set left
      document.targets.lookup target
  | node => return node

/-- The text that a node is: that of any scalar. -/
def asText (document : Document) (node : Node) : Decoder Text := do
  match ← document.resolve node with
  | .scalar _ _ _ value => return value
  | _ => failure

def truthOf? (value : Text) : Option Bool :=
  if ["true".toList, "True".toList, "TRUE".toList].contains value then some true
  else if ["false".toList, "False".toList, "FALSE".toList].contains value then some false
  else none

/-- The truth value that a node is: a plain scalar, or a literal one with the tag for it. -/
def asBool (document : Document) (node : Node) : Decoder Bool := do
  match ← document.resolve node with
  | .scalar _ tag style value =>
    if style = .plain || (style = .literal && tag = some (standardTag "bool")) then truthOf? value
    else failure
  | _ => failure

/-- Nothing, or a value of a kind. Nothing is an empty plain scalar or one of its other spellings;
a plain scalar with a tag is a value unless the tag says otherwise. -/
def asOptional (document : Document) (decode : Node → Decoder α) (node : Node) :
    Decoder (Option α) := do
  let node ← document.resolve node
  match node with
  | .scalar _ none .plain value =>
    if value.isEmpty || isNullWord value then return none else return some (← decode node)
  | .scalar _ (some tag) .plain value =>
    if tag = standardTag "null" then
      if isNullWord value then return none else failure
    else return some (← decode node)
  | _ => return some (← decode node)

def asList (document : Document) (decode : Node → Decoder α) (node : Node) :
    Decoder (List α) := do
  match ← document.resolve node with
  | .sequence _ items => items.mapM decode
  | .scalar _ _ .plain [] => return []
  | _ => failure

def asEntries (document : Document) (node : Node) : Decoder (List (Node × Node)) := do
  match ← document.resolve node with
  | .mapping _ entries => return entries
  | .scalar _ _ .plain [] => return []
  | _ => failure

/-- The table that a mapping is; the last of several values for a key counts. -/
def asTable (document : Document) (decode : Node → Decoder α) (node : Node) :
    Decoder (Table α) := do
  let entries ← (← document.asEntries node).mapM fun (key, value) => do
    return (← document.asText key, ← decode value)
  return Table.ofList entries

def asFields (document : Document) (node : Node) : Decoder (List (Text × Node)) := do
  (← document.asEntries node).mapM fun (key, value) => return (← document.asText key, value)

def hasDistinct (names : List Text) (fields : List (Text × Node)) : Bool :=
  names.all fun name => (fields.countP fun field => field.1 = name) ≤ 1

def required (fields : List (Text × Node)) (name : String) (decode : Node → Decoder α) :
    Decoder α :=
  match fields.lookup name.toList with
  | some node => decode node
  | none => failure

def optional (fields : List (Text × Node)) (name : String) (fallback : α)
    (decode : Node → Decoder α) : Decoder α :=
  match fields.lookup name.toList with
  | some node => decode node
  | none => return fallback

end Document
end Placeholders.Yaml
