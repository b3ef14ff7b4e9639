import Mathlib.Data.List.Perm.Basic
import Mathlib.Data.Fintype.Order
import Mathlib.Order.WellFounded
import ChangeGate.Digraph

/-! Orders of a graph in which every edge leads forward. A graph without cycles has one, and it is
found by taking free places one after another: among finitely many places there always is a free
one, since otherwise edges could be followed back for ever. -/

namespace ChangeGate.Digraph

variable {α : Type} {g : Digraph α} {place : Nat} {left order : List Nat}

theorem mem_range_of_node? (g : Digraph α) {node : α} (h : g.node? place = some node) :
    place ∈ List.range g.size :=
  List.mem_range.mpr (List.getElem?_eq_some_iff.mp h).1

/-- The nodes are those at the places. -/
theorem filterMap_node?_range (g : Digraph α) :
    (List.range g.size).filterMap g.node? = g.nodes := by
  rw [size, List.range_eq_range', ← List.zipIdx_map_snd 0 g.nodes, List.filterMap_map]
  conv_rhs => rw [← List.zipIdx_map_fst 0 g.nodes, ← List.filterMap_eq_map]
  exact List.filterMap_congr fun entry hMem => List.mk_mem_zipIdx_iff_getElem?.mp hMem

def Leads (g : Digraph α) (source target : Nat) : Prop := (source, target) ∈ g.edges

def Acyclic (g : Digraph α) : Prop := ∀ place, ¬ Relation.TransGen g.Leads place place

/-- An order of the places `left` in which every edge among them leads forward. -/
structure Orders (g : Digraph α) (left order : List Nat) : Prop where
  perm : order.Perm left
  forward : ∀ source ∈ left, ∀ target ∈ left, g.Leads source target →
    [source, target].Sublist order

/-- What sorting a graph means: a graph without cycles gets an order of all its places. -/
def Sorts (sort : Digraph α → Option (List Nat)) : Prop :=
  ∀ g : Digraph α, g.Acyclic → ∃ order, sort g = some order ∧ g.Orders (List.range g.size) order

theorem isFree_iff : g.isFree left place = true ↔ ∀ source ∈ left, ¬ g.Leads source place := by
  simp only [isFree, Leads, Bool.not_eq_true', List.any_eq_false, Bool.and_eq_true, beq_iff_eq,
    List.contains_iff_mem, not_and]
  constructor
  · exact fun h source hSource hEdge => h _ hEdge rfl hSource
  · rintro h ⟨source, target⟩ hEdge rfl hSource
    exact h source hSource hEdge

/-- Among places there are, one is free. -/
theorem Acyclic.exists_free (acyclic : g.Acyclic) (hLeft : left ≠ []) :
    ∃ place ∈ left, g.isFree left place = true := by
  let before (a b : { place // place ∈ left }) : Prop := Relation.TransGen g.Leads a.1 b.1
  have : IsTrans _ before := ⟨fun _ _ _ => Relation.TransGen.trans⟩
  have : Std.Irrefl before := ⟨fun a => acyclic a.1⟩
  have : Finite { place // place ∈ left } := List.finite_toSet left
  have wellFounded : WellFounded before := Finite.wellFounded_of_trans_of_irrefl before
  obtain ⟨first, hFirst⟩ := List.exists_mem_of_ne_nil left hLeft
  obtain ⟨⟨place, hPlace⟩, -, hMinimal⟩ :=
    wellFounded.has_min Set.univ ⟨⟨first, hFirst⟩, trivial⟩
  refine ⟨place, hPlace, isFree_iff.mpr fun source hSource hEdge => ?_⟩
  exact hMinimal ⟨source, hSource⟩ trivial (.single hEdge)

/-- A free place goes before an order of the others. -/
theorem Orders.cons (hFree : g.isFree left place = true) (hPlace : place ∈ left)
    (orders : g.Orders (left.erase place) order) : g.Orders left (place :: order) where
  perm := (orders.perm.cons place).trans (List.perm_cons_erase hPlace).symm
  forward source hSource target hTarget hEdge := by
    have hOther : target ≠ place := by
      rintro rfl
      exact isFree_iff.mp hFree source hSource hEdge
    have hLater : target ∈ left.erase place := (List.mem_erase_of_ne hOther).mpr hTarget
    by_cases hHere : source = place
    · subst hHere
      exact (List.singleton_sublist.mpr (orders.perm.mem_iff.mpr hLater)).cons_cons source
    · have hRest := (List.mem_erase_of_ne hHere).mpr hSource
      exact (orders.forward source hRest target hLater hEdge).cons place

/-- Free places can be taken until none is left. -/
theorem Acyclic.exists_orderOf? (acyclic : g.Acyclic) {n : Nat} (hLength : left.length = n) :
    ∃ order, g.orderOf? n left = some order ∧ g.Orders left order := by
  induction n generalizing left with
  | zero =>
      obtain rfl := List.eq_nil_of_length_eq_zero hLength
      exact ⟨[], rfl, .refl [], by simp⟩
  | succ n ih =>
      have hLeft : left ≠ [] := List.ne_nil_of_length_eq_add_one hLength
      obtain ⟨place, hFound⟩ := Option.isSome_iff_exists.mp
        (List.find?_isSome.mpr (acyclic.exists_free hLeft))
      have hPlace := List.mem_of_find?_eq_some hFound
      have hRest : (left.erase place).length = n := by
        rw [List.length_erase_of_mem hPlace, hLength, Nat.add_sub_cancel]
      obtain ⟨order, hOrder, orders⟩ := ih hRest
      refine ⟨place :: order, ?_, orders.cons (List.find?_some hFound) hPlace⟩
      rw [orderOf?, hFound]
      dsimp only
      rw [hOrder]
      rfl

theorem sorts_order? : Sorts (order? (α := α)) := by
  intro g acyclic
  have hLength : (List.range g.size).reverse.length = g.size := by simp
  obtain ⟨order, hOrder, orders⟩ := acyclic.exists_orderOf? hLength
  refine ⟨order, hOrder, orders.perm.trans (List.reverse_perm _), ?_⟩
  simpa using orders.forward

end ChangeGate.Digraph
