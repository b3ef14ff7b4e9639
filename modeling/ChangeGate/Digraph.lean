/-!
Directed graphs that grow by a node or an edge at a time, and orders of their nodes in which every
edge leads forward.
-/

namespace ChangeGate

/-- A directed graph. A node is known by its place: the number of nodes that were added before it.
-/
structure Digraph (α : Type) where
  nodes : List α
  /-- The edges from place to place, the one added last first. -/
  edges : List (Nat × Nat)
  edges_lt : ∀ e ∈ edges, e.1 < nodes.length ∧ e.2 < nodes.length

namespace Digraph

variable {α : Type}

def empty : Digraph α := ⟨[], [], by simp⟩

def size (g : Digraph α) : Nat := g.nodes.length

def node? (g : Digraph α) (place : Nat) : Option α := g.nodes[place]?

/-- The graph with one more node, which has the size of the graph as its place. -/
def addNode (g : Digraph α) (node : α) : Digraph α where
  nodes := g.nodes ++ [node]
  edges := g.edges
  edges_lt e hMem := by
    have h := g.edges_lt e hMem
    simp only [List.length_append, List.length_singleton]
    omega

@[simp] theorem size_addNode (g : Digraph α) (node : α) : (g.addNode node).size = g.size + 1 := by
  simp [size, addNode]

def addEdge (g : Digraph α) (source target : Nat) (hSource : source < g.size)
    (hTarget : target < g.size) : Digraph α where
  nodes := g.nodes
  edges := (source, target) :: g.edges
  edges_lt e hMem := by
    rcases List.mem_cons.mp hMem with rfl | hMem
    · exact ⟨hSource, hTarget⟩
    · exact g.edges_lt e hMem

@[simp] theorem size_addEdge (g : Digraph α) {source target : Nat} (hSource : source < g.size)
    (hTarget : target < g.size) : (g.addEdge source target hSource hTarget).size = g.size := rfl

def hasEdge (g : Digraph α) (source target : Nat) : Bool := g.edges.contains (source, target)

/-- The places to which the edges from a place lead, the edge added last first. -/
def successors (g : Digraph α) (source : Nat) : List Nat :=
  (g.edges.filter (·.1 == source)).map (·.2)

/-- Whether no edge leads to a place from one of those that are left. -/
def isFree (g : Digraph α) (left : List Nat) (place : Nat) : Bool :=
  !g.edges.any fun e => e.2 == place && left.contains e.1

/-- An order of `n` of the places that are left: each time, of those that are free, the one that
stands first among those left. -/
def orderOf? (g : Digraph α) : Nat → List Nat → Option (List Nat)
  | 0, _ => some []
  | n + 1, left =>
    match left.find? (g.isFree left) with
    | none => none
    | some place => (g.orderOf? n (left.erase place)).map (place :: ·)

/-- An order of all places, if the graph has one. Of the places that may come next, the one that was
added last does. -/
def order? (g : Digraph α) : Option (List Nat) :=
  g.orderOf? g.size (List.range g.size).reverse

end Digraph

end ChangeGate
