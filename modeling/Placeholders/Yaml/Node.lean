import Placeholders.Yaml.Token

/-! Nodes of a YAML document. An anchor gives a node a number by which aliases name it; the numbers
count the different anchor names before it, so a name used again may give a number a second time,
and then the later node has it. -/

namespace Placeholders.Yaml

inductive Node where
  | alias (target : Nat)
  | scalar (anchor : Option Nat) (tag : Option Bytes) (style : ScalarStyle) (value : Text)
  | sequence (anchor : Option Nat) (items : List Node)
  | mapping (anchor : Option Nat) (entries : List (Node × Node))
  deriving Inhabited

namespace Node

/-- The scalar that stands where nothing is written. -/
def blank : Node := .scalar none none .plain []

def anchor? : Node → Option Nat
  | .alias _ => none
  | .scalar anchor _ _ _ => anchor
  | .sequence anchor _ => anchor
  | .mapping anchor _ => anchor

mutual

/-- The number of events of a node, as a parser reports them: a collection has one where it begins
and one where it ends. -/
def events : Node → Nat
  | .alias _ => 1
  | .scalar _ _ _ _ => 1
  | .sequence _ items => eventsOfItems items + 2
  | .mapping _ entries => eventsOfEntries entries + 2

def eventsOfItems : List Node → Nat
  | [] => 0
  | item :: items => events item + eventsOfItems items

def eventsOfEntries : List (Node × Node) → Nat
  | [] => 0
  | (key, value) :: entries => events key + events value + eventsOfEntries entries

end

mutual

/-- The nodes with numbers in a node, each before those inside it. -/
def anchored (node : Node) : List (Nat × Node) :=
  (node.anchor?.map fun n => (n, node)).toList ++
    match node with
    | .sequence _ items => anchoredItems items
    | .mapping _ entries => anchoredEntries entries
    | _ => []

def anchoredItems : List Node → List (Nat × Node)
  | [] => []
  | item :: items => anchored item ++ anchoredItems items

def anchoredEntries : List (Node × Node) → List (Nat × Node)
  | [] => []
  | (key, value) :: entries => anchored key ++ anchored value ++ anchoredEntries entries

end

end Node

/-- A document: its node, unless the text holds none, and the nodes that aliases may name. -/
structure Document where
  root : Option Node
  targets : List (Nat × Node)

namespace Document

def ofNode (root : Node) : Document := ⟨some root, root.anchored.reverse⟩

def empty : Document := ⟨none, []⟩

/-- The number of aliases that may be followed while a document is read. -/
def maxJumps (document : Document) : Nat := 100 * (document.root.map Node.events).getD 0

end Document
end Placeholders.Yaml
