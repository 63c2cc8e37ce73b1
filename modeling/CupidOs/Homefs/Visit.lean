import CupidOs.Homefs.Container
import CupidOs.NodeTree.Creation
import Mathlib.Algebra.Order.BigOperators.Group.Finset

/-!
# The order in which a tree is saved

On a tree of the right shape the recursion of `homefs_collect_nodes` ends.  It
lists every node once, the root first and each parent before its children.
-/

namespace CupidOs.Homefs

open List NodeTree Option Vfs

/-- A listing of the nodes with parents in front of their children. -/
structure Listed (tree : Tree) (order : List Nat) : Prop where
  nodup : order.Nodup
  first : order[0]? = some rootId
  allocated : ∀ id ∈ order, (tree.nodes id).isSome
  closed : ∀ id ∈ order, ∀ child ∈ tree.childrenOf id, child ∈ order
  earlier : ∀ (index id : Nat) (node : Node), order[index]? = some id → id ≠ rootId →
    tree.nodes id = some node →
      ∃ (parent : Nat) (above : Nat), node.parent = some parent ∧ order[above]? = some parent ∧
        above < index

/-- A visit under way: the nodes already listed and those still to be visited. -/
structure Visiting (tree : Tree) (seen stack : List Nat) : Prop where
  nodup : (seen ++ stack).Nodup
  first : (seen ++ stack)[0]? = some rootId
  allocated : ∀ id ∈ seen ++ stack, (tree.nodes id).isSome
  closed : ∀ id ∈ seen, ∀ child ∈ tree.childrenOf id, child ∈ seen ++ stack
  above : ∀ id ∈ stack, id ≠ rootId → ∀ node, tree.nodes id = some node →
    ∃ parent ∈ seen, node.parent = some parent
  earlier : ∀ (index id : Nat) (node : Node), seen[index]? = some id → id ≠ rootId →
    tree.nodes id = some node →
      ∃ (parent : Nat) (above : Nat), node.parent = some parent ∧ seen[above]? = some parent ∧
        above < index

variable {tree : Tree}

lemma Visiting.listed {seen : List Nat} (visiting : Visiting tree seen []) :
    Listed tree (seen ++ []) :=
  ⟨visiting.nodup, visiting.first, visiting.allocated,
    fun id member => visiting.closed id (by simpa using member), by simpa using visiting.earlier⟩

section

variable (shape : Shape tree)
include shape

/-- Distinct allocated addresses are fewer than the addresses handed out. -/
theorem length_le_nextId {ids : List Nat} (nodup : ids.Nodup)
    (allocated : ∀ id ∈ ids, (tree.nodes id).isSome) : ids.length ≤ tree.nextId := by
  have inside : ids ⊆ range tree.nextId := by
    intro id member
    rcases isSome_iff_exists.mp (allocated id member) with ⟨node, found⟩
    exact mem_range.mpr (shape.bounded id node found)
  simpa using (subperm_of_subset nodup inside).length_le

lemma visiting_root : Visiting tree [] [rootId] := by
  rcases shape.root with ⟨root, found, _, _⟩
  constructor
  · simp
  · rfl
  · simp [found]
  · simp
  · intro id member notRoot
    exact absurd (mem_singleton.mp member) notRoot
  · simp

/-- The children of the next node have not been listed yet. -/
theorem Visiting.children_new {seen stack : List Nat} {id child : Nat}
    (visiting : Visiting tree seen (id :: stack)) (isChild : child ∈ tree.childrenOf id) :
    child ∉ seen ++ id :: stack := by
  rcases nodes_of_mem_childrenOf isChild with ⟨node, found, member⟩
  rcases shape.child id node found child member with ⟨below, belowFound, up, increasing⟩
  have notRoot : child ≠ rootId := by
    simp only [rootId]
    omega
  have idNew : id ∉ seen := by
    intro again
    exact (nodup_append.mp visiting.nodup).2.2 id again id mem_cons_self rfl
  intro listed
  rcases mem_append.mp listed with inSeen | inStack
  · rcases getElem?_of_mem inSeen with ⟨index, atIndex⟩
    rcases visiting.earlier index child below atIndex notRoot belowFound with
      ⟨parent, above, parentEq, aboveAt, _⟩
    rw [up] at parentEq
    cases parentEq
    exact idNew (mem_of_getElem? aboveAt)
  · rcases visiting.above child inStack notRoot below belowFound with ⟨parent, inSeen, parentEq⟩
    rw [up] at parentEq
    cases parentEq
    exact idNew inSeen

lemma Visiting.step {seen stack : List Nat} {id : Nat}
    (visiting : Visiting tree seen (id :: stack)) :
    Visiting tree (seen ++ [id]) (tree.childrenOf id ++ stack) := by
  rcases isSome_iff_exists.mp
    (visiting.allocated id (mem_append_right _ mem_cons_self)) with ⟨node, found⟩
  have childrenEq := childrenOf_of_nodes found
  have memIff : ∀ other, other ∈ seen ++ [id] ++ (tree.childrenOf id ++ stack) ↔
      other ∈ seen ++ id :: stack ∨ other ∈ tree.childrenOf id := by
    intro other
    simp only [mem_append, mem_cons, not_mem_nil, or_false]
    tauto
  constructor
  · have regrouped : List.Perm (seen ++ [id] ++ (tree.childrenOf id ++ stack))
        (tree.childrenOf id ++ (seen ++ id :: stack)) := by
      rw [perm_iff_count]
      intro other
      simp only [count_append, count_cons, count_nil]
      omega
    rw [regrouped.nodup_iff, nodup_append', childrenEq]
    refine ⟨shape.nodup id node found, visiting.nodup, fun child isChild => ?_⟩
    exact visiting.children_new shape (childrenEq ▸ isChild)
  · cases seen <;> simpa using visiting.first
  · intro other member
    rcases (memIff other).mp member with old | isChild
    · exact visiting.allocated other old
    · exact shape.isSome_of_mem_childrenOf isChild
  · intro other inSeen child isChild
    rw [memIff]
    rcases mem_append.mp inSeen with old | new
    · exact Or.inl (visiting.closed other old child isChild)
    · rw [mem_singleton.mp new] at isChild
      exact Or.inr isChild
  · intro other member notRoot otherNode otherFound
    rcases mem_append.mp member with isChild | old
    · rw [childrenEq] at isChild
      rcases shape.child id node found other isChild with ⟨below, belowFound, up, _⟩
      rw [otherFound] at belowFound
      cases belowFound
      exact ⟨id, by simp, up⟩
    · rcases visiting.above other (mem_cons_of_mem _ old) notRoot otherNode otherFound with
        ⟨parent, inSeen, parentEq⟩
      exact ⟨parent, mem_append_left _ inSeen, parentEq⟩
  · intro index other otherNode atIndex notRoot otherFound
    have kept : ∀ {position parent : Nat}, seen[position]? = some parent →
        (seen ++ [id])[position]? = some parent := fun atPosition =>
      getElem?_append_left (List.getElem?_eq_some_iff.mp atPosition).1 ▸ atPosition
    rcases lt_or_ge index seen.length with inSeen | new
    · rw [getElem?_append_left inSeen] at atIndex
      rcases visiting.earlier index other otherNode atIndex notRoot otherFound with
        ⟨parent, above, parentEq, aboveAt, less⟩
      exact ⟨parent, above, parentEq, kept aboveAt, less⟩
    · have last : index = seen.length ∧ other = id := by
        have bound := (List.getElem?_eq_some_iff.mp atIndex).1
        simp only [length_append, length_singleton] at bound
        have indexEq : index = seen.length := by omega
        subst indexEq
        simpa using atIndex.symm
      rcases last with ⟨rfl, rfl⟩
      rcases visiting.above other mem_cons_self notRoot otherNode otherFound with
        ⟨parent, inSeen, parentEq⟩
      rcases getElem?_of_mem inSeen with ⟨above, aboveAt⟩
      exact ⟨parent, above, parentEq, kept aboveAt, (List.getElem?_eq_some_iff.mp aboveAt).1⟩

/-- A visit with enough steps left ends and lists the remaining nodes. -/
theorem Visiting.visit_ends {fuel : Nat} {seen stack : List Nat}
    (visiting : Visiting tree seen stack) (enough : tree.nextId ≤ fuel + seen.length) :
    ∃ rest, visit tree fuel stack = some rest ∧ Listed tree (seen ++ rest) := by
  induction fuel generalizing seen stack with
  | zero =>
    have bound := length_le_nextId shape visiting.nodup visiting.allocated
    cases stack with
    | nil => exact ⟨[], rfl, visiting.listed⟩
    | cons id stack =>
      simp only [length_append, length_cons] at bound
      omega
  | succ fuel ih =>
    cases stack with
    | nil => exact ⟨[], rfl, visiting.listed⟩
    | cons id stack =>
      rcases ih (visiting.step shape) (by
        simp only [length_append, length_singleton]
        omega) with ⟨rest, visited, listed⟩
      refine ⟨id :: rest, ?_, ?_⟩
      · simp only [visit, visited, map_some]
      · simpa using listed

lemma visitTree_ends : ∃ order, visitTree tree = some order ∧ Listed tree order :=
  (visiting_root shape).visit_ends shape (by simp)

end

end CupidOs.Homefs
