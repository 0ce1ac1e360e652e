import SiteScript.Yaml.Node

/-!
# Documents of YAML

The root of a document, and what its aliases stand for.  An alias may stand for a node
around itself, so they are not put in place beforehand but followed while values are
read; how often that may happen is limited.
-/

namespace SiteScript.Yaml

/-! ## Nodes within a node -/

mutual
/-- The nodes with an anchor in a node, by the numbers of the anchors, in the order in which they
begin. -/
def Node.anchored : Node → List (Nat × Node)
  | .alias _ => []
  | .scalar properties text plain => properties.numbered (.scalar properties text plain)
  | .sequence properties items =>
    properties.numbered (.sequence properties items) ++ anchoredItems items
  | .mapping properties entries =>
    properties.numbered (.mapping properties entries) ++ anchoredEntries entries
/-- The nodes with an anchor in the items of a sequence. -/
def anchoredItems : List Node → List (Nat × Node)
  | [] => []
  | item :: rest => item.anchored ++ anchoredItems rest
/-- The nodes with an anchor in the entries of a mapping. -/
def anchoredEntries : List (Node × Node) → List (Nat × Node)
  | [] => []
  | (key, node) :: rest => key.anchored ++ node.anchored ++ anchoredEntries rest
end

mutual
/-- The number of scalars and aliases in a node, and of the beginnings and ends of sequences and
mappings. -/
def Node.size : Node → Nat
  | .alias _ => 1
  | .scalar .. => 1
  | .sequence _ items => 2 + itemsSize items
  | .mapping _ entries => 2 + entriesSize entries
/-- The size of the items of a sequence. -/
def itemsSize : List Node → Nat
  | [] => 0
  | item :: rest => item.size + itemsSize rest
/-- The size of the entries of a mapping. -/
def entriesSize : List (Node × Node) → Nat
  | [] => 0
  | (key, node) :: rest => key.size + node.size + entriesSize rest
end

/-! ## Following aliases -/

/-- What is read from a document, if anything, while its aliases are followed; the state is how
many of them may still be followed. -/
abbrev Reading := StateT Nat Option

/-- A document. -/
structure Document where
  root : Node
  /-- The nodes with an anchor by the numbers of the anchors; of those with the same number the
  first one counts. -/
  anchored : List (Nat × Node)
  deriving Repr

namespace Document

/-- The document with the given root.  Of nodes whose anchors have the same number the one that
begins last counts. -/
def ofRoot (root : Node) : Document :=
  { root, anchored := root.anchored.reverse }

/-- Reads something from a document; a hundred aliases may be followed for everything in it. -/
def run? {α : Type} (document : Document) (reading : Node → Reading α) : Option α :=
  (reading document.root).run' (100 * document.root.size)

/-- The node that a node stands for: the one with its anchor if it is an alias. -/
def follow (document : Document) : Node → Reading Node
  | .alias number => do
    let left ← get
    if left = 0 then failure
    set (left - 1)
    document.anchored.lookup number
  | node => return node

/-- The text of a scalar as it is written. -/
def text (document : Document) (node : Node) : Reading String := do
  match ← document.follow node with
  | .scalar _ text _ => return text
  | _ => failure

end Document

end SiteScript.Yaml
