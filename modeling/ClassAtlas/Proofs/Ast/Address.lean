import Mathlib.Data.List.Infix
import Mathlib.Data.List.Sort
import Mathlib.Order.Lattice
import ClassAtlas.Ast.Node
/-!
# Addresses in a tree

An address says how a node of a tree is reached from the root: by the numbers of the children on
the way, **the last step first**. So the addresses above an address are its proper endings, and
what is said about a node and everything above it is said by recursion on its address. Equal
nodes at different addresses stay apart.

Addresses stand in two orders. In document order (`ClassAtlas.Ast.ComesBefore`) a node comes
before everything below it, in the order of completion (`ClassAtlas.Ast.FinishesBefore`) after
it; where neither of two nodes is below the other, both orders go by the earlier child at the
place where the ways part. `ClassAtlas.Ast.Node.preOrder` and `ClassAtlas.Ast.Node.postOrder` list
the addresses of a subtree in the two orders
(`ClassAtlas.Ast.Node.lists_preOrder`, `ClassAtlas.Ast.Node.lists_postOrder`).
-/

namespace ClassAtlas

namespace Ast

/-! ### Nodes by induction -/

/-- What a node has when all its children have it, every node has. -/
theorem Node.induction {P : Node → Prop} (h : ∀ node, (∀ child ∈ node.inner, P child) → P node)
    (node : Node) : P node := by
  refine @Node.rec P (fun nodes => ∀ child ∈ nodes, P child)
    (fun _ _ inner _ _ _ _ _ _ _ _ hinner => h _ hinner) ?_ ?_ node
  · exact fun _ hchild => absurd hchild List.not_mem_nil
  · exact fun _ _ hhead htail => List.forall_mem_cons.mpr ⟨hhead, htail⟩

section Fold

variable {α : Type}

mutual

/-- A value for a node, computed from the values for its children. -/
def Node.fold (f : Node → List α → α) : Node → α
  | ⟨kind, name, inner, symbol, type, isVirtual, isPure, isConstexpr, bases, tagUsed,
      isComplete⟩ =>
      f ⟨kind, name, inner, symbol, type, isVirtual, isPure, isConstexpr, bases, tagUsed,
        isComplete⟩ (foldAll f inner)

/-- The values for nodes in a list. -/
def foldAll (f : Node → List α → α) : List Node → List α
  | [] => []
  | node :: nodes => node.fold f :: foldAll f nodes

end

theorem foldAll_eq_map (f : Node → List α → α) (nodes : List Node) :
    foldAll f nodes = nodes.map (Node.fold f) := by
  induction nodes with
  | nil => rfl
  | cons node nodes ih => rw [foldAll, ih, List.map_cons]

theorem Node.fold_eq (f : Node → List α → α) (node : Node) :
    node.fold f = f node (node.inner.map (Node.fold f)) := by
  rw [← foldAll_eq_map]
  cases node
  rfl

end Fold

/-! ### Addresses -/

/-- **The node at an address.** An address that leads out of the tree has a node of which nothing
is known. -/
def Node.nodeAt (root : Node) : List Nat → Node
  | [] => root
  | k :: above => (root.nodeAt above).inner.getD k {}

/-- **The addresses of a tree**: every step picks a child. -/
def Node.Has (root : Node) : List Nat → Prop
  | [] => True
  | k :: above => root.Has above ∧ k < (root.nodeAt above).inner.length

/-- The addresses above an address, innermost first. -/
def ancestors (p : List Nat) : List (List Nat) :=
  p.tails.tail

@[simp] theorem ancestors_nil : ancestors [] = [] := rfl

@[simp] theorem ancestors_cons (k : Nat) (above : List Nat) :
    ancestors (k :: above) = above :: ancestors above := by
  cases above <;> rfl

theorem mem_ancestors {p q : List Nat} : q ∈ ancestors p ↔ q <:+ p ∧ q ≠ p := by
  induction p with
  | nil => simp
  | cons k above ih =>
    rw [ancestors_cons, List.mem_cons, ih, List.suffix_cons_iff]
    constructor
    · rintro (rfl | ⟨hsuffix, -⟩)
      · exact ⟨Or.inr List.suffix_rfl, by simp⟩
      · refine ⟨Or.inr hsuffix, fun heq => ?_⟩
        have hlen := hsuffix.length_le
        rw [heq, List.length_cons] at hlen
        omega
    · rintro ⟨rfl | hsuffix, hne⟩
      · exact absurd rfl hne
      · exact (eq_or_ne q above).imp_right fun hne' => ⟨hsuffix, hne'⟩

theorem mem_ancestors_iff_exists {p q : List Nat} : p ∈ ancestors q ↔ ∃ k, k :: p <:+ q := by
  rw [mem_ancestors]
  constructor
  · rintro ⟨⟨below, rfl⟩, hne⟩
    obtain ⟨below, k, rfl⟩ := (List.eq_nil_or_concat' below).resolve_left
      fun hnil => hne (by rw [hnil, List.nil_append])
    exact ⟨k, below, by simp⟩
  · rintro ⟨k, hsuffix⟩
    refine ⟨(List.suffix_cons k p).trans hsuffix, fun heq => ?_⟩
    have hlen := hsuffix.length_le
    rw [← heq, List.length_cons] at hlen
    omega

variable {root : Node} {p q : List Nat}

/-- What is above an address of a tree is an address of the tree. -/
theorem Node.Has.of_suffix (h : root.Has q) (hsuffix : p <:+ q) : root.Has p := by
  induction q with
  | nil => rwa [List.suffix_nil.mp hsuffix]
  | cons k above ih =>
    rcases List.suffix_cons_iff.mp hsuffix with rfl | hsuffix
    · exact h
    · exact ih h.1 hsuffix

/-- Nothing is known of a node at an address that leads out of the tree. -/
theorem Node.nodeAt_of_not_has (h : ¬root.Has p) : root.nodeAt p = {} := by
  induction p with
  | nil => exact absurd trivial h
  | cons k above ih =>
    have hnone : (root.nodeAt above).inner[k]? = none := by
      rw [List.getElem?_eq_none_iff]
      by_cases habove : root.Has above
      · exact Nat.le_of_not_lt fun hlt => h ⟨habove, hlt⟩
      · rw [ih habove]
        exact Nat.zero_le k
    rw [Node.nodeAt, List.getD_eq_getElem?_getD, hnone, Option.getD_none]

/-- A node of one of the kinds that are told apart is in the tree. -/
theorem Node.has_of_declKind (h : (root.nodeAt p).declKind ≠ .other) : root.Has p := by
  by_contra hnot
  rw [Node.nodeAt_of_not_has hnot] at h
  exact h rfl

theorem Node.has_of_isKind {isKind : Kind → Bool} (hother : isKind .other = false)
    (h : isKind (root.nodeAt p).declKind = true) : root.Has p := by
  refine Node.has_of_declKind fun hkind => ?_
  rw [hkind, hother] at h
  cases h

/-- An address of a tree and what is below it make up its subtree. -/
theorem eq_or_mem_ancestors_and (hp : root.Has p) :
    q = p ∨ p ∈ ancestors q ∧ root.Has q ↔ p <:+ q ∧ root.Has q := by
  rw [mem_ancestors]
  constructor
  · rintro (rfl | ⟨⟨hsuffix, -⟩, hq⟩)
    · exact ⟨List.suffix_rfl, hp⟩
    · exact ⟨hsuffix, hq⟩
  · rintro ⟨hsuffix, hq⟩
    exact (eq_or_ne q p).imp_right fun hne => ⟨⟨hsuffix, hne.symm⟩, hq⟩

/-- **Induction towards the root**: what an address has when all addresses one step below it have
it, every address of a tree has. -/
theorem Node.Has.induction {P : (p : List Nat) → root.Has p → Prop}
    (step : ∀ p (hp : root.Has p), (∀ k (hk : root.Has (k :: p)), P (k :: p) hk) → P p hp)
    (p : List Nat) (hp : root.Has p) : P p hp := by
  induction hnode : root.nodeAt p using Node.induction generalizing p with
  | h node ih =>
    refine step p hp fun k hk => ih (root.nodeAt (k :: p)) ?_ (k :: p) hk rfl
    rw [← hnode, Node.nodeAt, List.getD_eq_getElem?_getD, List.getElem?_eq_getElem hk.2]
    exact List.getElem_mem hk.2

/-- The children of a node with their numbers are the nodes one step further. -/
theorem Node.nodeAt_of_mem_zipIdx {child : Node} {k : Nat}
    (h : (child, k) ∈ (root.nodeAt p).inner.zipIdx) : root.nodeAt (k :: p) = child := by
  rw [Node.nodeAt, List.getD_eq_getElem?_getD, List.mem_zipIdx_iff_getElem?.mp h,
    Option.getD_some]

/-- A child with its number is at an address of the tree. -/
theorem Node.child_of_mem_zipIdx (hp : root.Has p) {numbered : Node × Nat}
    (h : numbered ∈ (root.nodeAt p).inner.zipIdx) :
    root.Has (numbered.2 :: p) ∧ root.nodeAt (numbered.2 :: p) = numbered.1 :=
  ⟨⟨hp, (List.getElem?_eq_some_iff.mp (List.mem_zipIdx_iff_getElem?.mp h)).1⟩,
    Node.nodeAt_of_mem_zipIdx h⟩

/-! ### The two orders -/

/-- **One address is left of another**: their ways part somewhere, and there the first takes the
earlier child. -/
def IsLeftOf (p q : List Nat) : Prop :=
  ∃ above k l, k < l ∧ k :: above <:+ p ∧ l :: above <:+ q

/-- **Document order**: a node comes before everything below it. -/
def ComesBefore (p q : List Nat) : Prop :=
  p ∈ ancestors q ∨ IsLeftOf p q

/-- **The order of completion**: a node is finished after everything below it. -/
def FinishesBefore (p q : List Nat) : Prop :=
  q ∈ ancestors p ∨ IsLeftOf p q

/-- Read from the root, an address that comes before another is lexicographically smaller. -/
theorem ComesBefore.reverse_lt (h : ComesBefore p q) : p.reverse < q.reverse := by
  rcases h with habove | ⟨above, k, l, hlt, ⟨below, rfl⟩, ⟨below', rfl⟩⟩
  · obtain ⟨⟨below, rfl⟩, hne⟩ := mem_ancestors.mp habove
    cases hbelow : below.reverse with
    | nil => exact absurd (by simpa using hbelow) hne
    | cons k below' =>
      rw [List.reverse_append, hbelow]
      simpa using List.append_left_lt (List.nil_lt_cons k below')
  · simp only [List.reverse_append, List.reverse_cons, List.append_assoc]
    refine List.append_left_lt ?_
    exact List.cons_lt_cons_iff.mpr (Or.inl hlt)

theorem ComesBefore.irrefl (p : List Nat) : ¬ComesBefore p p := fun h =>
  List.lt_irrefl _ h.reverse_lt

theorem ComesBefore.asymm (h : ComesBefore p q) : ¬ComesBefore q p := fun h' =>
  List.lt_asymm h.reverse_lt h'.reverse_lt

theorem FinishesBefore.irrefl (p : List Nat) : ¬FinishesBefore p p := by
  rintro (habove | hleft)
  · exact (mem_ancestors.mp habove).2 rfl
  · exact ComesBefore.irrefl p (Or.inr hleft)

/-- **A list of addresses lists a set of addresses in an order.** -/
structure Lists (before : List Nat → List Nat → Prop) (S : List Nat → Prop)
    (sites : List (List Nat)) : Prop where
  /-- The addresses stand in the order. -/
  ordered : sites.Pairwise before
  /-- The addresses are those of the set. -/
  mem_iff : ∀ p, p ∈ sites ↔ S p

namespace Lists

variable {before : List Nat → List Nat → Prop} {S : List Nat → Prop} {sites : List (List Nat)}

/-- A part of a set is listed by a part of the list. -/
theorem filter (h : Lists before S sites) (T : List Nat → Prop) [DecidablePred T] :
    Lists before (fun p => S p ∧ T p) (sites.filter (T ·)) where
  ordered := h.ordered.filter _
  mem_iff p := by rw [List.mem_filter, h.mem_iff, decide_eq_true_eq]

theorem congr {S' : List Nat → Prop} (h : Lists before S sites) (hiff : ∀ p, S p ↔ S' p) :
    Lists before S' sites where
  ordered := h.ordered
  mem_iff p := (h.mem_iff p).trans (hiff p)

/-- What lies in a set is listed by a part of a list of the set. -/
theorem restrict (h : Lists before S sites) {T : List Nat → Prop} [DecidablePred T]
    (hsub : ∀ p, T p → S p) : Lists before T (sites.filter (T ·)) :=
  (h.filter T).congr fun p => ⟨fun hp => hp.2, fun hp => ⟨hsub p hp, hp⟩⟩

/-- No address is listed twice in an order that puts none before itself. -/
theorem nodup (h : Lists before S sites) (hirrefl : ∀ p, ¬before p p) : sites.Nodup := by
  refine h.ordered.imp fun {p q} hbefore (heq : p = q) => hirrefl p ?_
  rwa [← heq] at hbefore

/-- An order in which of two addresses only one comes before the other lists a set in one way. -/
theorem unique {sites' : List (List Nat)} (h : Lists before S sites) (h' : Lists before S sites')
    (hasymm : ∀ p q, before p q → ¬before q p) : sites = sites' := by
  have _ : Std.Asymm before := ⟨hasymm⟩
  exact h.ordered.eq_of_mem_iff h'.ordered fun p => (h.mem_iff p).trans (h'.mem_iff p).symm

end Lists

/-! ### The addresses of a subtree -/

/-- The addresses that a function gives for the children of the node at `p`. -/
def overChildren (f : Node → List Nat → List (List Nat)) (p : List Nat)
    (children : List (Node × Nat)) : List (List Nat) :=
  children.flatMap fun numbered => f numbered.1 (numbered.2 :: p)

@[simp] theorem overChildren_nil (f : Node → List Nat → List (List Nat)) (p : List Nat) :
    overChildren f p [] = [] := rfl

@[simp] theorem overChildren_cons (f : Node → List Nat → List (List Nat)) (p : List Nat)
    (child : Node) (k : Nat) (children : List (Node × Nat)) :
    overChildren f p ((child, k) :: children) =
      f child (k :: p) ++ overChildren f p children := rfl

/-- **The addresses of the subtree** with the given node at address `p`, in document order. -/
def Node.preOrder (node : Node) : List Nat → List (List Nat) :=
  node.fold fun _ below p => p :: below.zipIdx.flatMap fun numbered => numbered.1 (numbered.2 :: p)

/-- **The addresses of the subtree** with the given node at address `p`, in the order of
completion. -/
def Node.postOrder (node : Node) : List Nat → List (List Nat) :=
  node.fold fun _ below p =>
    (below.zipIdx.flatMap fun numbered => numbered.1 (numbered.2 :: p)) ++ [p]

theorem Node.preOrder_eq (node : Node) (p : List Nat) :
    node.preOrder p = p :: overChildren Node.preOrder p node.inner.zipIdx := by
  rw [Node.preOrder, Node.fold_eq, List.zipIdx_map, List.flatMap_map]
  rfl

theorem Node.postOrder_eq (node : Node) (p : List Nat) :
    node.postOrder p = overChildren Node.postOrder p node.inner.zipIdx ++ [p] := by
  rw [Node.postOrder, Node.fold_eq, List.zipIdx_map, List.flatMap_map]
  rfl

section Children

variable {f : Node → List Nat → List (List Nat)} {before : List Nat → List Nat → Prop}

/-- Lists of the subtrees of all children make a list of what is below their parent, in an order
that goes from left to right. -/
theorem lists_overChildren (hleft : ∀ {q r}, IsLeftOf q r → before q r) (hp : root.Has p)
    (h : ∀ k, root.Has (k :: p) → Lists before (fun q => k :: p <:+ q ∧ root.Has q)
      (f (root.nodeAt (k :: p)) (k :: p))) :
    Lists before (fun q => p ∈ ancestors q ∧ root.Has q)
      (overChildren f p (root.nodeAt p).inner.zipIdx) := by
  have hchild : ∀ numbered ∈ (root.nodeAt p).inner.zipIdx,
      Lists before (fun q => numbered.2 :: p <:+ q ∧ root.Has q)
        (f numbered.1 (numbered.2 :: p)) := by
    intro numbered hmem
    obtain ⟨hhas, hchild⟩ := Node.child_of_mem_zipIdx hp hmem
    have hlists := h numbered.2 hhas
    rwa [hchild] at hlists
  constructor
  · -- inside of one subtree the list is ordered, and across two the earlier child comes first
    refine List.pairwise_flatMap.mpr ⟨fun numbered hmem => (hchild numbered hmem).ordered, ?_⟩
    have hnumbers : (root.nodeAt p).inner.zipIdx.Pairwise fun i j => i.2 < j.2 := by
      rw [← List.pairwise_map (f := Prod.snd) (R := (· < ·)), List.zipIdx_map_snd]
      exact List.pairwise_lt_range'
    refine hnumbers.imp_of_mem fun {i j} hi hj hlt q hq r hr => hleft ?_
    exact ⟨p, i.2, j.2, hlt, (((hchild i hi).mem_iff q).mp hq).1,
      (((hchild j hj).mem_iff r).mp hr).1⟩
  · intro q
    rw [overChildren, List.mem_flatMap, mem_ancestors_iff_exists]
    constructor
    · rintro ⟨numbered, hmem, hq⟩
      obtain ⟨hsuffix, hhas⟩ := ((hchild numbered hmem).mem_iff q).mp hq
      exact ⟨⟨numbered.2, hsuffix⟩, hhas⟩
    · rintro ⟨⟨k, hsuffix⟩, hhas⟩
      -- the first step below `p` is a child, since all of the address is in the tree
      have hk : root.Has (k :: p) := hhas.of_suffix hsuffix
      have hmem : (root.nodeAt (k :: p), k) ∈ (root.nodeAt p).inner.zipIdx := by
        rw [List.mem_zipIdx_iff_getElem?, Node.nodeAt, List.getD_eq_getElem?_getD,
          List.getElem?_eq_getElem hk.2, Option.getD_some]
      exact ⟨_, hmem, ((hchild _ hmem).mem_iff q).mpr ⟨hsuffix, hhas⟩⟩

end Children

/-- **Document order lists the subtree** of every address of a tree. -/
theorem Node.lists_preOrder (root : Node) {p : List Nat} (hp : root.Has p) :
    Lists ComesBefore (fun q => p <:+ q ∧ root.Has q) ((root.nodeAt p).preOrder p) := by
  induction p, hp using Node.Has.induction with
  | step p hp ih =>
    have hbelow := lists_overChildren Or.inr hp ih
    rw [Node.preOrder_eq]
    constructor
    · exact List.pairwise_cons.mpr
        ⟨fun q hq => Or.inl ((hbelow.mem_iff q).mp hq).1, hbelow.ordered⟩
    · intro q
      rw [List.mem_cons, hbelow.mem_iff, eq_or_mem_ancestors_and hp]

/-- **The order of completion lists the subtree** of every address of a tree. -/
theorem Node.lists_postOrder (root : Node) {p : List Nat} (hp : root.Has p) :
    Lists FinishesBefore (fun q => p <:+ q ∧ root.Has q) ((root.nodeAt p).postOrder p) := by
  induction p, hp using Node.Has.induction with
  | step p hp ih =>
    have hbelow := lists_overChildren Or.inr hp ih
    rw [Node.postOrder_eq]
    constructor
    · refine List.pairwise_append.mpr ⟨hbelow.ordered, List.pairwise_singleton _ _, ?_⟩
      intro q hq r hr
      rw [List.mem_singleton.mp hr]
      exact Or.inl ((hbelow.mem_iff q).mp hq).1
    · intro q
      rw [List.mem_append, List.mem_singleton, hbelow.mem_iff, or_comm,
        eq_or_mem_ancestors_and hp]

end Ast

end ClassAtlas
