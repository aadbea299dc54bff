import LogForwarder.Yaml.Token

/-!
# Nodes of a YAML document

The tree that a document spells, before anything is said about what its scalars mean. A node may be
anchored, and a reference stands for the node anchored under its number; `Node.find?` finds that.
-/

namespace LogForwarder.Yaml

/-- A node of a document. Tags are written out in full. -/
inductive Node where
  | scalar (tag : Option String) (style : ScalarStyle) (text : String)
  | sequence (tag : Option String) (items : List Node)
  | mapping (tag : Option String) (entries : List (Node × Node))
  | anchored (id : Nat) (node : Node)
  | reference (id : Nat)
  deriving Repr, Inhabited

namespace Node

/-- What stands where a node is left out. -/
def empty : Node := .scalar none .plain ""

/-! ## Anchors -/

mutual

/-- The last node in a tree that is anchored under a number. -/
def find? (id : Nat) : Node → Option Node
  | .scalar .. | .reference _ => none
  | .sequence _ items => findItem? id items
  | .mapping _ entries => findEntry? id entries
  | .anchored other node =>
    match find? id node with
    | some found => some found
    | none => if other = id then some node else none

/-- The last node anchored under a number in the items of a sequence. -/
def findItem? (id : Nat) : List Node → Option Node
  | [] => none
  | node :: nodes =>
    match findItem? id nodes with
    | some found => some found
    | none => find? id node

/-- The last node anchored under a number in the entries of a mapping. -/
def findEntry? (id : Nat) : List (Node × Node) → Option Node
  | [] => none
  | (key, value) :: entries =>
    match findEntry? id entries with
    | some found => some found
    | none =>
      match find? id value with
      | some found => some found
      | none => find? id key

end

mutual

/-- How many nodes a tree has, the end of a collection counting as one. -/
def size : Node → Nat
  | .scalar .. | .reference _ => 1
  | .sequence _ items => 2 + sizeItems items
  | .mapping _ entries => 2 + sizeEntries entries
  | .anchored _ node => size node

/-- How many nodes the items of a sequence have. -/
def sizeItems : List Node → Nat
  | [] => 0
  | node :: nodes => size node + sizeItems nodes

/-- How many nodes the entries of a mapping have. -/
def sizeEntries : List (Node × Node) → Nat
  | [] => 0
  | (key, value) :: entries => size key + size value + sizeEntries entries

end

end Node

/-- A document: its content, if it has any. -/
structure Document where
  content : Option Node
  deriving Repr

end LogForwarder.Yaml
