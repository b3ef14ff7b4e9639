import ChangeGate.Yaml.Token.Lexer

/-!
The tree of a YAML document. Scalars keep their text and the way they are written, since what they
mean depends on the reader; anchors and aliases are numbered.
-/

namespace ChangeGate.Yaml

structure Properties where
  anchor : Option Nat := none
  tag : Option String := none
deriving DecidableEq, Repr, Inhabited

inductive Node where
  | scalar (properties : Properties) (text : String) (style : Style)
  | sequence (properties : Properties) (items : List Node)
  | mapping (properties : Properties) (entries : List (Node × Node))
  | alias (anchor : Nat)
deriving Repr, Inhabited

namespace Node

def empty : Node := .scalar {} "" .plain

mutual

/-- The nodes of a tree that have an anchor, in the order in which they start. -/
def anchored : Node → List (Nat × Node)
  | .scalar p text style => (p.anchor.map (·, .scalar p text style)).toList
  | .sequence p items => (p.anchor.map (·, .sequence p items)).toList ++ anchoredItems items
  | .mapping p entries => (p.anchor.map (·, .mapping p entries)).toList ++ anchoredEntries entries
  | .alias _ => []

/-- The nodes with an anchor in a list of trees. -/
def anchoredItems : List Node → List (Nat × Node)
  | [] => []
  | n :: rest => anchored n ++ anchoredItems rest

/-- The nodes with an anchor in a list of pairs of trees. -/
def anchoredEntries : List (Node × Node) → List (Nat × Node)
  | [] => []
  | (k, v) :: rest => anchored k ++ (anchored v ++ anchoredEntries rest)

end

end Node

mutual

/-- How many tokens a tree has at least: one for a scalar or an alias, and two around the nodes of a
list or mapping. -/
def Node.size : Node → Nat
  | .scalar .. => 1
  | .sequence _ items => Node.sizeOfItems items + 2
  | .mapping _ entries => Node.sizeOfEntries entries + 2
  | .alias _ => 1

def Node.sizeOfItems : List Node → Nat
  | [] => 0
  | n :: rest => n.size + Node.sizeOfItems rest

/-- The size of a list of pairs of trees. -/
def Node.sizeOfEntries : List (Node × Node) → Nat
  | [] => 0
  | (k, v) :: rest => k.size + (v.size + Node.sizeOfEntries rest)

end

/-- A document: its tree, and for the numbers of anchors the nodes that have them. -/
structure Document where
  root : Node
  anchors : List (Nat × Node)
deriving Repr

/-- The document of a tree. If several nodes have one number, an alias stands for the last of
them. -/
def Document.ofRoot (root : Node) : Document := ⟨root, root.anchored.reverse⟩

/-- The node that a node is or stands for. -/
def Document.target (d : Document) : Node → Node
  | .alias anchor => (d.anchors.lookup anchor).getD (.alias anchor)
  | node => node

end ChangeGate.Yaml
