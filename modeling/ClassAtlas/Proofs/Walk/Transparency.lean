import ClassAtlas.Proofs.Ast.Replacement
import ClassAtlas.Proofs.Walk.Collection
import ClassAtlas.Proofs.Walk.Frame
/-!
# Nodes that a walk does not notice

A node that opens no scope is left as it was entered. What it is itself is noticed when it is
entered, and its children see the scopes around it, so it makes no difference whether they stand
below it or behind it; and if the node is no member, it makes no difference whether it is there at
all. A namespace with a name does open a scope, but it leaves no trace of where it was closed and
opened again (`ClassAtlas.Walk.transparent_nodes_dissolve`).

All three are about one node in a tree of any size. What the walk makes of a tree depends on each
node only through what visiting the node does in the states in which the walk comes to it, and those
are the states that stand at the address of the node (`ClassAtlas.Walk.Stands.child`). So it is
enough to compare visits there (`ClassAtlas.Walk.collect_replaceAt`).
-/

namespace ClassAtlas

namespace Walk

variable {demangler : Demangler} {root : Ast.Node} {p : List Nat} {k : Nat} {state : State}

/-! ### Where the walk comes to a node -/

/-- After entering a node the walk stands before its children. -/
theorem Stands.enter {sites : List (List Nat)} (h : Stands root p (p :: sites) state)
    (demangler : Demangler) :
    Stands root (0 :: p) sites (enter demangler (root.nodeAt p) state).2 := by
  by_cases hopens : Opens root p
  · rw [enter_of_opens h hopens]
    exact h.below_of_opens hopens
  · rw [enter_of_not_opens h hopens]
    exact h.below_of_not_opens demangler hopens

/-- **After the children before it the walk stands at a child.** -/
theorem Stands.child (hk : root.Has (k :: p))
    (h : Stands root p ((root.nodeAt p).preOrder p) state) (demangler : Demangler) :
    Stands root (k :: p) ((root.nodeAt (k :: p)).preOrder (k :: p))
      (visitAll demangler ((root.nodeAt p).inner.take k)
        (Walk.enter demangler (root.nodeAt p) state).2) := by
  have hlength : ((root.nodeAt p).inner.take k).length = k := List.length_take_of_le hk.2.le
  have hsplit : (root.nodeAt p).inner.zipIdx = ((root.nodeAt p).inner.take k).zipIdx ++
      (root.nodeAt (k :: p), k) :: ((root.nodeAt p).inner.drop (k + 1)).zipIdx (k + 1) := by
    conv_lhs => rw [Ast.Node.inner_eq_append hk]
    rw [List.zipIdx_append, hlength, Nat.zero_add, List.zipIdx_cons]
  have hbefore : ∀ numbered ∈ ((root.nodeAt p).inner.take k).zipIdx,
      root.Has (numbered.2 :: p) ∧ root.nodeAt (numbered.2 :: p) = numbered.1 := by
    intro numbered hmem
    have hmem' : numbered ∈ (root.nodeAt p).inner.zipIdx := by
      rw [hsplit]
      exact List.mem_append_left _ hmem
    exact Ast.Node.child_of_mem_zipIdx hk.1 hmem'
  rw [Ast.Node.preOrder_eq, hsplit, Ast.overChildren, List.flatMap_append] at h
  have hentered := h.enter demangler
  -- the children before add what the tree says, and nothing of that changes where the walk stands
  rw [visitAll_nodeAt (fun l hl => visit_nodeAt hl) hbefore hentered.left]
  exact ((hentered.add rfl).sibling k).left

/-! ### What the walk makes of a tree with a node replaced -/

/-- What is entered does not depend on the children. -/
theorem visit_setInner (node : Ast.Node) (inner : List Ast.Node) (state : State) :
    visit demangler (node.setInner inner) state =
      leave (enter demangler node state).1
        (visitAll demangler inner (enter demangler node state).2) :=
  visit_eq demangler (node.setInner inner) state

section Replace

variable {nodes : List Ast.Node}

/-- The parent of a node is visited alike when the node is. -/
theorem visit_replaceChild (hk : root.Has (k :: p))
    (h : ∀ state, Stands root (k :: p) ((root.nodeAt (k :: p)).preOrder (k :: p)) state →
      visitAll demangler nodes state = visit demangler (root.nodeAt (k :: p)) state)
    (hstands : Stands root p ((root.nodeAt p).preOrder p) state) :
    visit demangler ((root.nodeAt p).replaceChild k nodes) state =
      visit demangler (root.nodeAt p) state := by
  rw [visit_eq demangler (root.nodeAt p), Ast.Node.replaceChild, visit_setInner]
  conv_rhs => rw [Ast.Node.inner_eq_append hk]
  rw [visitAll_append, visitAll_append, visitAll_append, visitAll,
    h _ (hstands.child hk demangler)]

/-- A tree is visited alike when another node at an address is. -/
theorem visit_setAt (hp : root.Has p) {node : Ast.Node}
    (h : ∀ state, Stands root p ((root.nodeAt p).preOrder p) state →
      visit demangler node state = visit demangler (root.nodeAt p) state)
    (hstands : Stands root [] (root.preOrder []) state) :
    visit demangler (root.setAt p node) state = visit demangler root state := by
  induction p generalizing node with
  | nil => exact h state hstands
  | cons k above ih => exact ih hp.1 fun _ hstands' => visit_replaceChild hp h hstands'

/-- **What a tree comes to depends on a node only through its visits**: replacing it by nodes whose
visits do the same wherever the walk comes to the node changes nothing in what is collected, if the
root has children still. -/
theorem collect_replaceAt (hp : root.Has p)
    (hinner : p ≠ [] → (root.replaceAt p nodes).inner ≠ [])
    (h : ∀ state, Stands root p ((root.nodeAt p).preOrder p) state →
      visitAll demangler nodes state = visit demangler (root.nodeAt p) state) :
    collect demangler (root.replaceAt p nodes) = collect demangler root := by
  cases p with
  | nil => rfl
  | cons k above =>
    have hkind : (root.replaceAt (k :: above) nodes).declKind = root.declKind :=
      congrArg Ast.Kind.ofTag (Ast.Node.kind_replaceAt nodes)
    have hvisit : visit demangler (root.replaceAt (k :: above) nodes) {} =
        visit demangler root {} :=
      visit_setAt hp.1 (fun _ hstands => visit_replaceChild hp h hstands) stands_root
    have hempty : (root.replaceAt (k :: above) nodes).inner.isEmpty = root.inner.isEmpty := by
      rw [List.isEmpty_eq_false_iff.mpr (hinner (List.cons_ne_nil _ _)),
        List.isEmpty_eq_false_iff.mpr hp.inner_ne_nil]
    have hrun : Walk.run demangler (root.replaceAt (k :: above) nodes) {} =
        Walk.run demangler root {} := by
      rw [Walk.run, Walk.run, hkind, Ast.Node.kind_replaceAt, hempty, hvisit]
    rw [collect, collect, collectTraced, collectTraced, hrun]

end Replace

/-! ### Nodes without a scope -/

section Transparent

variable {sites : List (List Nat)} (hstands : Stands root p (p :: sites) state)
  (hopens : ¬Opens root p) (hspace : spaceName? (root.nodeAt p) = none)

include hstands hopens hspace

theorem enter_fst_of_transparent : (enter demangler (root.nodeAt p) state).1 = .none := by
  rw [enter_of_not_opens hstands hopens, hspace]
  rfl

/-- A node without a scope is visited by entering it and then visiting its children, whichever
children it is given. -/
theorem visit_of_transparent (inner : List Ast.Node) :
    visit demangler ((root.nodeAt p).setInner inner) state =
      visitAll demangler inner (enter demangler (root.nodeAt p) state).2 := by
  rw [visit_setInner, enter_fst_of_transparent hstands hopens hspace]
  rfl

/-- The children may stand behind the node. -/
theorem visitAll_emptied_cons_inner :
    visitAll demangler ((root.nodeAt p).setInner [] :: (root.nodeAt p).inner) state =
      visit demangler (root.nodeAt p) state := by
  conv_rhs => rw [← Ast.Node.setInner_inner (root.nodeAt p)]
  rw [visitAll, visit_of_transparent hstands hopens hspace,
    visit_of_transparent hstands hopens hspace]
  rfl

/-- A node that is no member may be left out. -/
theorem visitAll_inner_of_not_member (hfield : (root.nodeAt p).declKind ≠ .field)
    (hmethod : (root.nodeAt p).declKind.isFunction = false) :
    visitAll demangler (root.nodeAt p).inner state = visit demangler (root.nodeAt p) state := by
  have hentered : (enter demangler (root.nodeAt p) state).2 = state := by
    rw [enter_of_not_opens hstands hopens, yieldOver_of_not_member hfield hmethod,
      State.add_empty, hspace]
    rfl
  conv_rhs => rw [← Ast.Node.setInner_inner (root.nodeAt p)]
  rw [visit_of_transparent hstands hopens hspace, hentered]

end Transparent

/-! ### Namespaces -/

/-- A namespace with a name is visited by visiting its children with the name in front, and taking
it off again. -/
theorem visit_of_space {node : Ast.Node} {name : String} (h : spaceName? node = some name)
    (state : State) :
    visit demangler node state = leave .space
      (visitAll demangler node.inner { state with qualifiers := name :: state.qualifiers }) := by
  rw [visit_eq, enter_of_space demangler h]

/-- **A namespace may be closed and opened again** between any two of its children. -/
theorem visitAll_split_space {node first second : Ast.Node} {name : String}
    (hnode : spaceName? node = some name) (hfirst : spaceName? first = some name)
    (hsecond : spaceName? second = some name) (hinner : first.inner ++ second.inner = node.inner)
    (state : State) :
    visitAll demangler [first, second] state = visit demangler node state := by
  obtain ⟨y, hy⟩ := exists_visitAll_eq_add demangler first.inner
    { state with qualifiers := name :: state.qualifiers }
  have hclosed : visit demangler first state = state.add y := by
    rw [visit_of_space hfirst, hy]
    rfl
  rw [visitAll, visitAll, visitAll, hclosed, visit_of_space hsecond, visit_of_space hnode, ← hinner,
    visitAll_append, hy]
  rfl

/-! ### The outcome -/

/-- **A node without a scope that is no member** can be replaced by its children, as long as the
root has some then. -/
theorem collect_replaceAt_of_not_member (hp : root.Has p) (hopens : ¬Opens root p)
    (hspace : spaceName? (root.nodeAt p) = none) (hfield : (root.nodeAt p).declKind ≠ .field)
    (hmethod : (root.nodeAt p).declKind.isFunction = false)
    (hinner : (root.replaceAt p (root.nodeAt p).inner).inner ≠ []) :
    collect demangler (root.replaceAt p (root.nodeAt p).inner) = collect demangler root := by
  refine collect_replaceAt hp (fun _ => hinner) fun state hstands => ?_
  rw [Ast.Node.preOrder_eq] at hstands
  exact visitAll_inner_of_not_member hstands hopens hspace hfield hmethod

/-- **A node that opens no scope may be dissolved.** When it neither opens a class nor is a
namespace with a name, its children can be moved behind it; when it is no field and no method
either, it can be replaced by its children, as long as the root has some then. And a namespace with
a name can be split into two of that name that share its children in order. What is collected, and
what the demangler is asked, stays the same, and so does a refusal. -/
theorem transparent_nodes_dissolve (demangler : Demangler) {root : Ast.Node} {p : List Nat}
    (hp : root.Has p) :
    (¬Opens root p → spaceName? (root.nodeAt p) = none →
      collect demangler
          (root.replaceAt p ((root.nodeAt p).setInner [] :: (root.nodeAt p).inner)) =
        collect demangler root ∧
      ((root.nodeAt p).declKind ≠ .field → (root.nodeAt p).declKind.isFunction = false →
        (root.replaceAt p (root.nodeAt p).inner).inner ≠ [] →
        collect demangler (root.replaceAt p (root.nodeAt p).inner) = collect demangler root)) ∧
    ∀ name first second, spaceName? (root.nodeAt p) = some name →
      spaceName? first = some name → spaceName? second = some name →
      first.inner ++ second.inner = (root.nodeAt p).inner →
      collect demangler (root.replaceAt p [first, second]) = collect demangler root := by
  refine ⟨fun hopens hspace => ⟨?_, collect_replaceAt_of_not_member hp hopens hspace⟩,
    fun name first second hnode hfirst hsecond hinner => ?_⟩
  · refine collect_replaceAt hp (fun hroot => Ast.Node.inner_replaceAt_ne_nil hroot
      (List.cons_ne_nil _ _)) fun state hstands => ?_
    rw [Ast.Node.preOrder_eq] at hstands
    exact visitAll_emptied_cons_inner hstands hopens hspace
  · refine collect_replaceAt hp (fun hroot => Ast.Node.inner_replaceAt_ne_nil hroot
      (List.cons_ne_nil _ _)) fun state _ => ?_
    exact visitAll_split_space hnode hfirst hsecond hinner state

/-- A namespace with two classes, the first of which is repeated inside of itself. -/
def layered : Ast.Node where
  kind := "TranslationUnitDecl"
  inner := [
    { kind := "NamespaceDecl", name := some "A", inner := [
      { kind := "CXXRecordDecl", name := some "B", inner := [
        { kind := "CXXRecordDecl", name := some "B", inner := [
          { kind := "FieldDecl", name := some "first" },
          { kind := "CXXMethodDecl", name := some "run", symbol := some "_ZN1A1B3runEv" }] },
        { kind := "FieldDecl", name := some "last" }] },
      { kind := "CXXRecordDecl", name := some "C" }] }]

/-- The repetition of the first class is emptied or left out, and the namespace is closed between
the two classes. -/
theorem transparent_nodes_dissolve_layered :
    let repetition := layered.nodeAt [0, 0, 0]
    let space := layered.nodeAt [0]
    layered.Has [0, 0, 0] ∧ ¬Opens layered [0, 0, 0] ∧ spaceName? repetition = none ∧
    layered.Has [0] ∧ spaceName? space = some "A" ∧
    ∃ collection, collect Demangler.silent layered = .ok collection ∧
      collection.requests = [some "_ZN1A1B3runEv"] ∧
      (collection.classes.map fun c => c.fields.map fun entry => entry.member.name) =
        [["first", "last"], []] ∧
      collect Demangler.silent
        (layered.replaceAt [0, 0, 0] (repetition.setInner [] :: repetition.inner)) =
          .ok collection ∧
      collect Demangler.silent (layered.replaceAt [0, 0, 0] repetition.inner) = .ok collection ∧
      collect Demangler.silent (layered.replaceAt [0]
        [space.setInner (space.inner.take 1), space.setInner (space.inner.drop 1)]) =
          .ok collection := by
  intro repetition space
  have hrepetition : layered.Has [0, 0, 0] :=
    ⟨⟨⟨trivial, by decide⟩, by decide⟩, by decide⟩
  have hopens : ¬Opens layered [0, 0, 0] := by decide
  have hspace : layered.Has [0] := ⟨trivial, by decide⟩
  obtain ⟨hmoved, hreplaced⟩ :=
    (transparent_nodes_dissolve Demangler.silent hrepetition).1 hopens rfl
  exact ⟨hrepetition, hopens, rfl, hspace, rfl, _, rfl, rfl, rfl, hmoved,
    hreplaced (by decide) rfl (List.cons_ne_nil _ _),
    (transparent_nodes_dissolve Demangler.silent hspace).2 "A" _ _ rfl rfl rfl
      (List.take_append_drop 1 space.inner)⟩

end Walk

end ClassAtlas
