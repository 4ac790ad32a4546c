import Placeholders.Yaml.Layout
import Placeholders.Yaml.Node

/-! From tokens to the document they write. Where a node may stand but none is written there is an
empty plain scalar. A text holds one document at most. -/

namespace Placeholders.Yaml

/-- How far the tokens are read. -/
structure Reading where
  tokens : List Token
  /-- Anchor names with their numbers, each name once. -/
  anchors : List (Text × Nat) := []
  /-- Tag handles with what they stand for; the first one counts. -/
  handles : List (Text × Bytes) := []

namespace Reading

abbrev Reader (α : Type) := StateT Reading Option α

def peek? : Reader (Option Token) := do return (← get).tokens.head?

def skip : Reader Unit := modify fun r => { r with tokens := r.tokens.drop 1 }

def define (name : Option Text) : Reader (Option Nat) := do
  match name with
  | none => return none
  | some name =>
    let number := (← get).anchors.length
    modify fun r =>
      { r with anchors := (name, number) :: r.anchors.filter fun entry => entry.1 ≠ name }
    return some number

def target (name : Text) : Reader Nat := do
  match (← get).anchors.lookup name with
  | some number => return number
  | none => failure

def resolveTag (handle : Text) (suffix : Bytes) : Reader Bytes := do
  if handle.isEmpty then return suffix
  else match (← get).handles.lookup handle with
    | some start => return start ++ suffix
    | none => failure

def anchorHere : Reader (Option Text) := do
  match ← peek? with
  | some (.anchor name) => skip; return some name
  | _ => return none

def tagHere : Reader (Option Bytes) := do
  match ← peek? with
  | some (.tag handle suffix) => skip; return some (← resolveTag handle suffix)
  | _ => return none

def properties : Reader (Option Text × Option Bytes) := do
  match ← anchorHere with
  | some name => return (some name, ← tagHere)
  | none =>
    match ← tagHere with
    | some tag => return (← anchorHere, some tag)
    | none => return (none, none)

def startsBlockNode : Option Token → Bool
  | some .blockEntry | some .key | some .value | some .blockEnd => false
  | _ => true

mutual

/-- Reads a node. In a block, collections may be laid out by columns, and `level` tells whether a
sequence may stand in the same column as the key before it. -/
def node (fuel : Nat) (block level : Bool) : Reader Node :=
  match fuel with
  | 0 => failure
  | fuel + 1 => do
    match ← peek? with
    | some (.alias name) => skip; return .alias (← target name)
    | _ =>
      let (name, tag) ← properties
      let next ← peek?
      let anchor ← define name
      match next, block, level with
      | some .blockEntry, _, true => return .sequence anchor (← levelItems fuel)
      | some (.scalar style value), _, _ =>
        -- the lone exclamation mark is a tag here too: parsers report it with the scalar
        skip
        return .scalar anchor tag style value
      | some .flowSequenceStart, _, _ => skip; return .sequence anchor (← flowItems fuel true)
      | some .flowMappingStart, _, _ => skip; return .mapping anchor (← flowEntries fuel true)
      | some .blockSequenceStart, true, _ => skip; return .sequence anchor (← blockItems fuel)
      | some .blockMappingStart, true, _ => skip; return .mapping anchor (← blockEntries fuel)
      | _, _, _ =>
        if name.isSome || tag.isSome then return .scalar anchor tag .plain [] else failure

def blockItems (fuel : Nat) : Reader (List Node) :=
  match fuel with
  | 0 => failure
  | fuel + 1 => do
    match ← peek? with
    | some .blockEntry =>
      skip
      let item ← match ← peek? with
        | some .blockEntry | some .blockEnd => pure Node.blank
        | _ => node fuel true false
      return item :: (← blockItems fuel)
    | some .blockEnd => skip; return []
    | _ => failure

/-- Reads the items of a sequence that stands in the column of a key. -/
def levelItems (fuel : Nat) : Reader (List Node) :=
  match fuel with
  | 0 => failure
  | fuel + 1 => do
    match ← peek? with
    | some .blockEntry =>
      skip
      let item ← if startsBlockNode (← peek?) then node fuel true false else pure Node.blank
      return item :: (← levelItems fuel)
    | _ => return []

def blockEntries (fuel : Nat) : Reader (List (Node × Node)) :=
  match fuel with
  | 0 => failure
  | fuel + 1 => do
    match ← peek? with
    | some .key =>
      skip
      let key ← blockPart fuel
      let value ← blockValue fuel
      return (key, value) :: (← blockEntries fuel)
    | some .blockEnd => skip; return []
    | _ => failure

def blockValue (fuel : Nat) : Reader Node :=
  match fuel with
  | 0 => failure
  | fuel + 1 => do
    match ← peek? with
    | some .value => skip; blockPart fuel
    | _ => return Node.blank

def blockPart (fuel : Nat) : Reader Node :=
  match fuel with
  | 0 => failure
  | fuel + 1 => do
    match ← peek? with
    | some .key | some .value | some .blockEnd => return Node.blank
    | _ => node fuel true true

def flowItems (fuel : Nat) (first : Bool) : Reader (List Node) :=
  match fuel with
  | 0 => failure
  | fuel + 1 => do
    match ← peek? with
    | some .flowSequenceEnd => skip; return []
    | next =>
      if !first then
        if next = some .flowEntry then skip else failure
      match ← peek? with
      | some .flowSequenceEnd => skip; return []
      | some .key =>
        skip
        let entry ← flowPair fuel
        return .mapping none [entry] :: (← flowItems fuel false)
      | _ =>
        let item ← node fuel false false
        return item :: (← flowItems fuel false)

/-- Reads a single entry of a flow sequence that is a key with a value. Where the key is missing
the token in its place is passed over. -/
def flowPair (fuel : Nat) : Reader (Node × Node) :=
  match fuel with
  | 0 => failure
  | fuel + 1 => do
    let key ← match ← peek? with
      | some .value | some .flowEntry | some .flowSequenceEnd => skip; pure Node.blank
      | _ => node fuel false false
    match ← peek? with
    | some .value =>
      skip
      match ← peek? with
      | some .flowEntry | some .flowSequenceEnd => return (key, Node.blank)
      | _ => return (key, ← node fuel false false)
    | _ => return (key, Node.blank)

def flowEntries (fuel : Nat) (first : Bool) : Reader (List (Node × Node)) :=
  match fuel with
  | 0 => failure
  | fuel + 1 => do
    match ← peek? with
    | some .flowMappingEnd => skip; return []
    | next =>
      if !first then
        if next = some .flowEntry then skip else failure
      match ← peek? with
      | some .flowMappingEnd => skip; return []
      | some .key =>
        skip
        let key ← match ← peek? with
          | some .value | some .flowEntry | some .flowMappingEnd => pure Node.blank
          | _ => node fuel false false
        let value ← match ← peek? with
          | some .value => skip; flowValue fuel
          | _ => pure Node.blank
        return (key, value) :: (← flowEntries fuel false)
      | _ =>
        let key ← node fuel false false
        return (key, Node.blank) :: (← flowEntries fuel false)

def flowValue (fuel : Nat) : Reader Node :=
  match fuel with
  | 0 => failure
  | fuel + 1 => do
    match ← peek? with
    | some .flowEntry | some .flowMappingEnd => return Node.blank
    | _ => node fuel false false

end

def defaultHandles : List (Text × Bytes) :=
  [(['!'], Text.Utf8.encode ['!']), (['!', '!'], Text.Utf8.encode "tag:yaml.org,2002:".toList)]

/-- Reads the directives of a document: at most one version, which must be known, and at most one
meaning for each tag handle. -/
def directives : List Token → Bool → List (Text × Bytes) → Option (List Token × List (Text × Bytes))
  | .versionDirective major minor :: tokens, versioned, handles =>
    if versioned || major ≠ 1 || (minor ≠ 1 && minor ≠ 2) then none
    else directives tokens true handles
  | .tagDirective handle start :: tokens, versioned, handles =>
    if (handles.lookup handle).isSome then none
    else directives tokens versioned (handles ++ [(handle, start)])
  | tokens, _, handles => some (tokens, handles)

def documentNode (fuel : Nat) : Reader Node := do
  match ← peek? with
  | some (.versionDirective _ _) | some (.tagDirective _ _) | some .documentStart =>
    let (tokens, handles) ← (directives (← get).tokens false [] : Option _)
    modify fun r => { r with tokens := tokens, handles := handles ++ defaultHandles }
    match ← peek? with
    | some .documentStart =>
      skip
      match ← peek? with
      | none | some .documentStart | some .documentEnd | some (.versionDirective _ _)
      | some (.tagDirective _ _) => return Node.blank
      | _ => node fuel true false
    | _ => failure
  | _ => node fuel true false

end Reading

/-- The document that tokens write. Behind it only signs that end it may stand. -/
def Document.ofTokens? (tokens : List Token) : Option Document :=
  if tokens.isEmpty then some .empty
  else
    -- each step reads a token or goes one level down to where one is read
    let fuel := 3 * tokens.length + 3
    let start : Reading := { tokens := tokens, handles := Reading.defaultHandles }
    match (Reading.documentNode fuel).run start with
    | some (root, behind) =>
      if behind.tokens.all (· = .documentEnd) then some (.ofNode root) else none
    | none => none

def Document.parse? (input : Text) : Option Document := (Token.read input).bind ofTokens?

end Placeholders.Yaml
