import Mathlib.Data.List.GetD
import ClassAtlas.Proofs.Ast.Address
/-!
# Replacing a node of a tree

A node of a tree can be replaced by any number of nodes, which then stand among the children of
its parent where it stood (`ClassAtlas.Ast.Node.replaceAt`). Addresses have the last step first, so
the new tree is built from the place of the replacement upwards: the parent is given other children,
and every node above it is given another child in the place of one that it had
(`ClassAtlas.Ast.Node.setAt`). The root has no parent and is never replaced.

Of the root only its children can change, and it has some as long as there is anything to put in
place of the node.
-/

namespace ClassAtlas

namespace Ast

/-- The node with other children. -/
def Node.setInner (node : Node) (inner : List Node) : Node :=
  { node with inner := inner }

@[simp] theorem Node.inner_setInner (node : Node) (inner : List Node) :
    (node.setInner inner).inner = inner := rfl

@[simp] theorem Node.setInner_inner (node : Node) : node.setInner node.inner = node := by
  cases node
  rfl

/-- The node with one of its children replaced by the given nodes. -/
def Node.replaceChild (node : Node) (k : Nat) (nodes : List Node) : Node :=
  node.setInner (node.inner.take k ++ nodes ++ node.inner.drop (k + 1))

/-- The tree with another node at an address. -/
def Node.setAt (root : Node) : List Nat → Node → Node
  | [], node => node
  | k :: above, node => root.setAt above ((root.nodeAt above).replaceChild k [node])

/-- **The tree with the node at an address replaced** by the given nodes, in the place where it
stands among the children of its parent. The root stays. -/
def Node.replaceAt (root : Node) : List Nat → List Node → Node
  | [], _ => root
  | k :: above, nodes => root.setAt above ((root.nodeAt above).replaceChild k nodes)

variable {root : Node} {p : List Nat} {k : Nat}

/-- The children of a node, taken apart at one of them. -/
theorem Node.inner_eq_append (hk : root.Has (k :: p)) :
    (root.nodeAt p).inner = (root.nodeAt p).inner.take k ++
      root.nodeAt (k :: p) :: (root.nodeAt p).inner.drop (k + 1) := by
  have hchild : root.nodeAt (k :: p) = (root.nodeAt p).inner.get ⟨k, hk.2⟩ := by
    rw [Node.nodeAt, List.getD_eq_getElem?_getD, List.getElem?_eq_getElem hk.2, Option.getD_some]
    rfl
  rw [hchild, List.get_eq_getElem, ← List.drop_eq_getElem_cons hk.2, List.take_append_drop]

/-- The new tree has the new node at the address. -/
theorem Node.nodeAt_setAt (hp : root.Has p) (node : Node) :
    (root.setAt p node).nodeAt p = node := by
  induction p generalizing node with
  | nil => rfl
  | cons k above ih =>
    have hlength : ((root.nodeAt above).inner.take k).length = k :=
      List.length_take_of_le hp.2.le
    rw [Node.nodeAt, Node.setAt, ih hp.1, Node.replaceChild, Node.inner_setInner, List.append_assoc,
      List.getD_append_right _ _ _ _ hlength.le, hlength, Nat.sub_self]
    rfl

/-- **The new tree has the given nodes in place of the one at the address**, between the children
that its parent had before it and those behind it. -/
theorem Node.inner_nodeAt_replaceAt (hp : root.Has p) (nodes : List Node) :
    ((root.replaceAt (k :: p) nodes).nodeAt p).inner =
      (root.nodeAt p).inner.take k ++ nodes ++ (root.nodeAt p).inner.drop (k + 1) := by
  rw [Node.replaceAt, Node.nodeAt_setAt hp, Node.replaceChild, Node.inner_setInner]

theorem Node.kind_setAt {node : Node} (h : node.kind = (root.nodeAt p).kind) :
    (root.setAt p node).kind = root.kind := by
  induction p generalizing node with
  | nil => exact h
  | cons k above ih => exact ih rfl

/-- The root keeps its kind. -/
theorem Node.kind_replaceAt (nodes : List Node) : (root.replaceAt p nodes).kind = root.kind := by
  cases p with
  | nil => rfl
  | cons k above => exact Node.kind_setAt rfl

theorem Node.inner_setAt_ne_nil {node : Node} (h : node.inner ≠ []) :
    (root.setAt p node).inner ≠ [] := by
  induction p generalizing node with
  | nil => exact h
  | cons k above ih => exact ih (by simp [Node.replaceChild])

/-- The root has children when a node below it is replaced by at least one. -/
theorem Node.inner_replaceAt_ne_nil (hp : p ≠ []) {nodes : List Node} (h : nodes ≠ []) :
    (root.replaceAt p nodes).inner ≠ [] := by
  cases p with
  | nil => exact absurd rfl hp
  | cons k above => exact Node.inner_setAt_ne_nil (by simp [Node.replaceChild, h])

/-- The root has children when the node that is replaced is not one of them. -/
theorem Node.inner_replaceAt_cons_cons_ne_nil (k l : Nat) (above : List Nat) (nodes : List Node) :
    (root.replaceAt (k :: l :: above) nodes).inner ≠ [] :=
  Node.inner_setAt_ne_nil (p := above) (by simp [Node.replaceChild])

/-- A root with an address below it has children. -/
theorem Node.Has.inner_ne_nil (h : root.Has (k :: p)) : root.inner ≠ [] := by
  induction p generalizing k with
  | nil => exact List.ne_nil_of_length_pos (Nat.zero_lt_of_lt h.2)
  | cons l above ih => exact ih h.1

end Ast

end ClassAtlas
