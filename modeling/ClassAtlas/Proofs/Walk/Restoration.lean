import ClassAtlas.Proofs.Ast.Replacement
import ClassAtlas.Proofs.Walk.Collection
import ClassAtlas.Proofs.Walk.Frame
/-!
# Scopes are left as they were found

Every node of a tree may open a scope, and a visit closes each of them again, whatever the node is
and whatever state the visit begins in, reached by a walk or not
(`ClassAtlas.Walk.scopes_are_left_as_found`). The namespaces are the same afterwards, and so are the
open classes but for members that the innermost one has got; the finished classes stay, and behind
them stands one more for each record of the tree that has opened one.

Which records these are depends on the state at the beginning, since the class that is innermost
there may be the one that a record repeats. So it is read off the tree and that state
(`ClassAtlas.Walk.OpensFrom`). A visit comes to every address of the tree in a state that is known
as well (`ClassAtlas.Walk.arrival`), and what it has open there are the scopes of the address
(`ClassAtlas.Walk.HasScopesAt`). That is the invariant: entering a node carries it to the children,
and what a visit adds never breaks it, so a record opens a class on arrival exactly when the tree
says so, and all that is opened is finished in the order of completion
(`ClassAtlas.Walk.finishesFrom_nodeAt`).
-/

namespace ClassAtlas

namespace Walk

variable {demangler : Demangler} {root node : Ast.Node} {p : List Nat} {k : Nat}
  {start state : State} {name : String}

/-! ### Opening from any state -/

/-- The name that is kept of the innermost open class, if there is one. -/
def State.innermost (state : State) : Option String :=
  state.openClasses.head?.map Class.name

/-- A node opens a class inside of one of which the given name is kept, if any: it is a record with
a name, and with another one. -/
def OpensWithin (kept : Option String) (node : Ast.Node) : Prop :=
  node.declKind = .record ∧ ∃ name ∈ node.properName, kept ≠ some name

instance (kept : Option String) (node : Ast.Node) : Decidable (OpensWithin kept node) :=
  inferInstanceAs (Decidable (node.declKind = .record ∧
    ∃ name ∈ node.properName, kept ≠ some name))

/-- **The name that is kept of the innermost class around an address**, when the tree is visited
from the given state: if no record above opens a class, it is that of the class that was open
before. -/
def keptAt (start : State) (root : Ast.Node) : List Nat → Option String
  | [] => start.innermost
  | _ :: above =>
      if OpensWithin (keptAt start root above) (root.nodeAt above) then
        some (Name.bare (declaredName root above))
      else keptAt start root above

/-- **The record at an address opens a class**, when the tree is visited from the given state. -/
def OpensFrom (start : State) (root : Ast.Node) (p : List Nat) : Prop :=
  OpensWithin (keptAt start root p) (root.nodeAt p)

instance (start : State) (root : Ast.Node) : DecidablePred (OpensFrom start root) := fun p =>
  inferInstanceAs (Decidable (OpensWithin (keptAt start root p) (root.nodeAt p)))

/-- **The class that the record at an address opens**, when the tree is visited from the given
state. Namespaces that were open before count for its full name. -/
def headFrom (start : State) (root : Ast.Node) (p : List Nat) : Class :=
  Class.new (declaredName root p)
    (qualify ((spaceNames root p).reverse ++ start.qualifiers) (declaredName root p))
    (classInfo (root.nodeAt p))

theorem keptAt_cons (k : Nat) :
    keptAt start root (k :: p) =
      if OpensFrom start root p then some (Name.bare (declaredName root p))
      else keptAt start root p := rfl

/-- Inside of the class that is opened at an address, the name that is kept is the bare one. -/
theorem opensWithin_map_iff {around : Option (List Nat)} :
    OpensWithin (around.map fun q => Name.bare (declaredName root q)) (root.nodeAt p) ↔
      OpensIn root around p := by
  rw [OpensWithin, OpensIn]
  cases around <;> simp

/-- Without an open class at the beginning, the name is that of the class around the address. -/
theorem keptAt_of_nil (h : start.openClasses = []) :
    keptAt start root p = (opener? root p).map fun q => Name.bare (declaredName root q) := by
  induction p with
  | nil =>
    rw [keptAt, State.innermost, h]
    rfl
  | cons k above ih =>
    have hopens : OpensFrom start root above ↔ Opens root above := by
      rw [OpensFrom, ih, opensWithin_map_iff]
      rfl
    rw [keptAt_cons, opener?_cons]
    by_cases habove : Opens root above
    · rw [if_pos (hopens.mpr habove), if_pos habove]
      rfl
    · rw [if_neg (mt hopens.mp habove), if_neg habove, ih]

/-- **Without an open class at the beginning, the same records open one** as in a walk over the
whole tree. -/
theorem opensFrom_iff_of_nil (h : start.openClasses = []) :
    OpensFrom start root p ↔ Opens root p := by
  rw [OpensFrom, keptAt_of_nil h, opensWithin_map_iff]
  rfl

theorem has_of_opensFrom (h : OpensFrom start root p) : root.Has p :=
  Ast.Node.has_of_declKind (by rw [h.1]; decide)

/-! ### Entering -/

theorem isSelfRecord_eq_false_iff :
    isSelfRecord state name = false ↔ state.innermost ≠ some name := by
  rw [isSelfRecord, State.innermost]
  cases state.openClasses.head? <;> simp

/-- **A class is opened on entering a node** exactly when the node opens one inside of the innermost
open class. -/
theorem enter_fst_eq_record_iff :
    (enter demangler node state).1 = .record ↔ OpensWithin state.innermost node := by
  constructor
  · intro h
    obtain ⟨name, hkind, hname, hself, -⟩ | ⟨name, -, henter⟩ | ⟨-, y, henter, -⟩ :=
      enter_cases demangler node state
    · exact ⟨hkind, name, hname, isSelfRecord_eq_false_iff.mp hself⟩
    · rw [henter] at h
      cases h
    · rw [henter] at h
      cases h
  · rintro ⟨hkind, name, hname, hself⟩
    rw [enter, hkind]
    dsimp only
    rw [openClass_of_not_self hname (isSelfRecord_eq_false_iff.mpr hself)]

/-- **A state has the scopes of an address** when its namespaces are those above the address, inside
of those that were open at the beginning, and its innermost class is the one around the address. -/
structure HasScopesAt (start : State) (root : Ast.Node) (p : List Nat) (state : State) : Prop where
  /-- The namespaces above the address stand in front. -/
  qualifiers : state.qualifiers = (spaceNames root p).reverse ++ start.qualifiers
  /-- The name that is kept is that of the innermost class. -/
  innermost : state.innermost = keptAt start root p

namespace HasScopesAt

theorem nil (start : State) (root : Ast.Node) : HasScopesAt start root [] start where
  qualifiers := rfl
  innermost := rfl

/-- What a visit adds does not change the scopes. -/
theorem add (h : HasScopesAt start root p state) (y : Yield) :
    HasScopesAt start root p (state.add y) where
  qualifiers := h.qualifiers
  innermost := by
    rw [← h.innermost, State.innermost, State.innermost, State.add]
    cases state.openClasses <;> rfl

/-- The scopes around the children of a node are the same for each. -/
theorem sibling (h : HasScopesAt start root (k :: p) state) (l : Nat) :
    HasScopesAt start root (l :: p) state where
  qualifiers := by rw [h.qualifiers, spaceNames_cons, spaceNames_cons]
  innermost := h.innermost

theorem opens_iff (h : HasScopesAt start root p state) (demangler : Demangler) :
    (enter demangler (root.nodeAt p) state).1 = .record ↔ OpensFrom start root p := by
  rw [enter_fst_eq_record_iff, h.innermost]
  rfl

/-- **What entering the node at an address does**: a record that opens a class there puts it in
front, a namespace puts its name in front, and any other node adds something but finishes no
class. -/
theorem enter_cases (h : HasScopesAt start root p state) (demangler : Demangler) :
    (OpensFrom start root p ∧ enter demangler (root.nodeAt p) state =
      (.record, { state with openClasses := headFrom start root p :: state.openClasses })) ∨
    ¬OpensFrom start root p ∧
      ((∃ name, spaceName? (root.nodeAt p) = some name ∧ enter demangler (root.nodeAt p) state =
        (.space, { state with qualifiers := name :: state.qualifiers })) ∨
      spaceName? (root.nodeAt p) = none ∧
        ∃ y, enter demangler (root.nodeAt p) state = (.none, state.add y) ∧ y.finished = []) := by
  have hopens := h.opens_iff demangler
  obtain ⟨name, -, hname, -, henter⟩ | ⟨name, hspace, henter⟩ | ⟨hspace, y, henter, hy⟩ :=
    Walk.enter_cases demangler (root.nodeAt p) state
  · left
    refine ⟨hopens.mp (by rw [henter]), ?_⟩
    rw [henter, headFrom, (mem_properName_iff.mp hname).1, ← h.qualifiers]
  · right
    refine ⟨fun hrecord => ?_, Or.inl ⟨name, hspace, henter⟩⟩
    have hscope := hopens.mpr hrecord
    rw [henter] at hscope
    cases hscope
  · right
    refine ⟨fun hrecord => ?_, Or.inr ⟨hspace, y, henter, hy⟩⟩
    have hscope := hopens.mpr hrecord
    rw [henter] at hscope
    cases hscope

/-- **After entering a node** the scopes are those of its children. -/
theorem enter (h : HasScopesAt start root p state) (demangler : Demangler) (k : Nat) :
    HasScopesAt start root (k :: p) (Walk.enter demangler (root.nodeAt p) state).2 := by
  obtain ⟨hopens, henter⟩ | ⟨hopens, ⟨name, hspace, henter⟩ | ⟨hspace, y, henter, -⟩⟩ :=
    h.enter_cases demangler
  · rw [henter]
    constructor
    · have hnone : spaceName? (root.nodeAt p) = none :=
        spaceName?_of_ne_scope (by rw [hopens.1]; decide)
      rw [spaceNames_cons, hnone, h.qualifiers]
      simp
    · rw [keptAt_cons, if_pos hopens]
      rfl
  · rw [henter]
    constructor
    · rw [spaceNames_cons, hspace, h.qualifiers]
      simp
    · rw [keptAt_cons, if_neg hopens]
      exact h.innermost
  · rw [henter]
    refine HasScopesAt.add ⟨?_, ?_⟩ y
    · rw [spaceNames_cons, hspace, h.qualifiers]
      simp
    · rw [keptAt_cons, if_neg hopens]
      exact h.innermost

/-- Visits leave the scopes of an address as they are. -/
theorem visitAll (h : HasScopesAt start root p state) (demangler : Demangler)
    (nodes : List Ast.Node) : HasScopesAt start root p (visitAll demangler nodes state) := by
  obtain ⟨y, hy⟩ := exists_visitAll_eq_add demangler nodes state
  rw [hy]
  exact h.add y

end HasScopesAt

/-! ### Arriving -/

/-- **The state in which a visit comes to the node at an address**: everything above has been
entered, and what is left of the way has been visited (`ClassAtlas.Walk.visit_arrival`). -/
def arrival (demangler : Demangler) (root : Ast.Node) (start : State) : List Nat → State
  | [] => start
  | k :: above =>
      visitAll demangler ((root.nodeAt above).inner.take k)
        (enter demangler (root.nodeAt above) (arrival demangler root start above)).2

/-- **On arrival the scopes are those of the address.** -/
theorem hasScopesAt_arrival : HasScopesAt start root p (arrival demangler root start p) := by
  induction p with
  | nil => exact HasScopesAt.nil start root
  | cons k above ih => exact (ih.enter demangler k).visitAll demangler _

/-- **A visit of a node comes to each of its children** and goes on behind it. -/
theorem visit_arrival (hk : root.Has (k :: p)) :
    visit demangler (root.nodeAt p) (arrival demangler root start p) =
      leave (enter demangler (root.nodeAt p) (arrival demangler root start p)).1
        (visitAll demangler ((root.nodeAt p).inner.drop (k + 1))
          (visit demangler (root.nodeAt (k :: p)) (arrival demangler root start (k :: p)))) := by
  rw [visit_eq]
  conv_lhs => rw [Ast.Node.inner_eq_append hk]
  rw [visitAll_append, visitAll, arrival]

/-! ### Finishing -/

/-- The classes that are opened at some addresses. -/
def openedAt (start : State) (root : Ast.Node) (sites : List (List Nat)) : List Class :=
  (sites.filter (OpensFrom start root ·)).map (headFrom start root)

theorem openedAt_append (sites sites' : List (List Nat)) :
    openedAt start root (sites ++ sites') =
      openedAt start root sites ++ openedAt start root sites' := by
  rw [openedAt, List.filter_append, List.map_append]
  rfl

/-- A visit that begins in a state with the scopes of an address finishes what is opened in the
subtree, in the order of completion. -/
def FinishesFrom (demangler : Demangler) (start : State) (root : Ast.Node) (p : List Nat) : Prop :=
  ∀ state, HasScopesAt start root p state →
    (visit demangler (root.nodeAt p) state).finished.map Class.head =
      state.finished.map Class.head ++ openedAt start root ((root.nodeAt p).postOrder p)

/-- The children of a node, from the `k`-th on, finish what is opened in their subtrees if each of
them does. -/
theorem finished_visitAll_nodeAt
    (h : ∀ k, root.Has (k :: p) → FinishesFrom demangler start root (k :: p))
    {nodes : List Ast.Node} {k : Nat}
    (hnodes : ∀ numbered ∈ nodes.zipIdx k,
      root.Has (numbered.2 :: p) ∧ root.nodeAt (numbered.2 :: p) = numbered.1)
    (hscopes : HasScopesAt start root (k :: p) state) :
    (visitAll demangler nodes state).finished.map Class.head =
      state.finished.map Class.head ++
        openedAt start root (Ast.overChildren Ast.Node.postOrder p (nodes.zipIdx k)) := by
  induction nodes generalizing k state with
  | nil => exact (List.append_nil _).symm
  | cons child nodes ih =>
    obtain ⟨⟨hhas, hchild⟩, hrest⟩ := List.forall_mem_cons.mp (List.zipIdx_cons ▸ hnodes)
    obtain rfl : root.nodeAt (k :: p) = child := hchild
    have hnext : HasScopesAt start root (k :: p)
        (visit demangler (root.nodeAt (k :: p)) state) :=
      hscopes.visitAll demangler [root.nodeAt (k :: p)]
    rw [visitAll, ih hrest (hnext.sibling (k + 1)), h k hhas state hscopes, List.zipIdx_cons,
      Ast.overChildren_cons, openedAt_append, List.append_assoc]

/-- **All that is opened is finished**, wherever a visit has come to. -/
theorem finishesFrom_nodeAt (hp : root.Has p) : FinishesFrom demangler start root p := by
  induction p, hp using Ast.Node.Has.induction with
  | step p hp ih =>
    intro state hscopes
    have hbelow := finished_visitAll_nodeAt ih
      (fun _ hmem => Ast.Node.child_of_mem_zipIdx hp hmem) (hscopes.enter demangler 0)
    rw [visit_eq, Ast.Node.postOrder_eq, openedAt_append, ← List.append_assoc]
    obtain ⟨hopens, henter⟩ | ⟨hopens, hother⟩ := hscopes.enter_cases demangler
    · -- the class of the node is finished last, with the members that it has got by then
      have hown : openedAt start root [p] = [headFrom start root p] := by
        simp [openedAt, hopens]
      obtain ⟨y, hy⟩ := exists_visitAll_eq_add demangler (root.nodeAt p).inner
        { state with openClasses := headFrom start root p :: state.openClasses }
      rw [henter, hy] at hbelow
      rw [henter, hy, leave_record_add, hown, ← hbelow, State.add, ← List.append_assoc,
        List.map_append]
      rfl
    · have hown : openedAt start root [p] = [] := by simp [openedAt, hopens]
      rw [hown, List.append_nil]
      obtain ⟨name, -, henter⟩ | ⟨-, y, henter, hy⟩ := hother
      · rw [henter] at hbelow ⊢
        exact hbelow
      · have hsame : (state.add y).finished = state.finished := by
          rw [State.add, hy, List.append_nil]
        rw [henter] at hbelow ⊢
        exact hsame ▸ hbelow

/-- The records that open a class, in the order of completion. -/
theorem lists_opensFrom (start : State) (root : Ast.Node) :
    Ast.Lists Ast.FinishesBefore (OpensFrom start root)
      ((root.postOrder []).filter (OpensFrom start root ·)) :=
  (Ast.Node.lists_postOrder root (p := []) trivial).restrict
    fun _ h => ⟨List.nil_suffix, has_of_opensFrom h⟩

end Walk

/-! ### Scopes that are restored -/

/-- **A class has only got members**: what it was opened with is the same, and its members stand in
front of the new ones. -/
structure Class.IsExtendedBy (c c' : Class) : Prop where
  /-- The name is the same. -/
  name : c'.name = c.name
  /-- The full name is the same. -/
  fullName : c'.fullName = c.fullName
  /-- All else that the dump says is the same. -/
  info : c'.info = c.info
  /-- The methods stand in front. -/
  methods : c.methods <+: c'.methods
  /-- The fields stand in front. -/
  fields : c.fields <+: c'.fields

theorem Class.isExtendedBy_addMembers (c : Class) (methods : List (Entry Method))
    (fields : List (Entry Field)) : c.IsExtendedBy (c.addMembers methods fields) where
  name := rfl
  fullName := rfl
  info := rfl
  methods := List.prefix_append ..
  fields := List.prefix_append ..

namespace Walk

/-- **The scopes of a state are restored** by a visit of a node and of all below it. -/
structure Restores (demangler : Demangler) (node : Ast.Node) (before after : State) : Prop where
  /-- The namespaces are the same. -/
  qualifiers : after.qualifiers = before.qualifiers
  /-- As many classes are open. -/
  depth : after.openClasses.length = before.openClasses.length
  /-- The classes around the innermost one are the same. -/
  around : after.openClasses.tail = before.openClasses.tail
  /-- The innermost class, if there is one, has only got members. -/
  innermost : ∀ c ∈ before.openClasses.head?, ∃ c' ∈ after.openClasses.head?, c.IsExtendedBy c'
  /-- The visit has opened a class on arrival at an address exactly when the tree says so. -/
  opened : ∀ p, (enter demangler (node.nodeAt p) (arrival demangler node before p)).1 = .record ↔
    OpensFrom before node p
  /-- Behind the classes that were finished before stand those that the records of the tree have
  opened, one for each and in the order of completion. -/
  finished : ∃ openings classes, Ast.Lists Ast.FinishesBefore (OpensFrom before node) openings ∧
    after.finished = before.finished ++ classes ∧ classes.length = openings.length ∧
    classes.map Class.head = openings.map (headFrom before node)

theorem restores_visit (demangler : Demangler) (node : Ast.Node) (state : State) :
    Restores demangler node state (visit demangler node state) := by
  obtain ⟨y, hy⟩ := exists_visit_eq_add demangler node state
  have hheads : y.finished.map Class.head = openedAt state node (node.postOrder []) := by
    have hall : FinishesFrom demangler state node [] := finishesFrom_nodeAt trivial
    have hfinishes := hall state (HasScopesAt.nil state node)
    rw [Ast.Node.nodeAt, hy, State.add, List.map_append] at hfinishes
    exact List.append_cancel_left hfinishes
  rw [hy]
  constructor
  case qualifiers => rfl
  case depth => exact List.length_modifyHead
  case around => exact List.tail_modifyHead
  case innermost =>
    intro c hc
    refine ⟨_, ?_, c.isExtendedBy_addMembers y.methods y.fields⟩
    rw [State.add, List.head?_modifyHead, hc]
    rfl
  case opened => exact fun p => hasScopesAt_arrival.opens_iff demangler
  case finished =>
    refine ⟨_, _, lists_opensFrom state node, rfl, ?_, hheads⟩
    simpa [openedAt] using congrArg List.length hheads

/-- Where no class is open, none is left open. -/
theorem openClasses_visit_of_nil (demangler : Demangler) (node : Ast.Node)
    (h : state.openClasses = []) : (visit demangler node state).openClasses = [] := by
  rw [← List.length_eq_zero_iff, (restores_visit demangler node state).depth, h, List.length_nil]

/-- The classes that are collected are those that are finished after the visit of the root. -/
theorem classes_of_collect {collection : Collection}
    (h : collect demangler root = .ok collection) :
    collection.classes = (visit demangler root {}).finished := by
  obtain ⟨hunit, hinner, -⟩ := collect_eq_ok_iff.mp h
  rw [collect_of_unit hunit hinner] at h
  exact (congrArg Collection.classes (Except.ok.inj h)).symm

/-- **Every scope that a visit opens is closed again.** Whatever state the visit of a node begins
in, its namespaces and its open classes are the same afterwards, but for members that the innermost
class has got, and behind its finished classes stands one more for each record at or below the node
that has opened one. Where no class is open none is left open, so of the classes of a tree none is
left unfinished when they are collected. -/
theorem scopes_are_left_as_found (demangler : Demangler) (node : Ast.Node) (state : State) :
    Restores demangler node state (visit demangler node state) ∧
    (state.openClasses = [] → (visit demangler node state).openClasses = []) ∧
    ∀ collection, collect demangler node = .ok collection →
      (visit demangler node {}).openClasses = [] ∧
      collection.classes = (visit demangler node {}).finished ∧
      ∃ openings, Ast.Lists Ast.FinishesBefore (Opens node) openings ∧
        collection.classes.length = openings.length := by
  refine ⟨restores_visit demangler node state, openClasses_visit_of_nil demangler node,
    fun collection hcollect => ?_⟩
  have hclasses := classes_of_collect hcollect
  obtain ⟨openings, classes, hlists, hfinished, hlength, -⟩ :=
    (restores_visit demangler node {}).finished
  refine ⟨openClasses_visit_of_nil demangler node rfl, hclasses, openings,
    hlists.congr fun p => opensFrom_iff_of_nil rfl, ?_⟩
  rw [hclasses, hfinished, List.nil_append, hlength]

/-- A class that is repeated by the node below, with a field, inside of another class and of two
namespaces; and a class that is finished. -/
def midway : State where
  qualifiers := ["B", "A"]
  openClasses := [
    { name := "Outer", fullName := "A::B::Outer", fields := [⟨{ name := "first" }, none⟩] },
    { name := "Around", fullName := "A::B::Around" }]
  finished := [{ name := "Done", fullName := "A::Done" }]

/-- A repetition of the innermost class, with a class in a namespace of its own in which a class of
the same name is nested. -/
def outerAgain : Ast.Node where
  kind := "CXXRecordDecl"
  name := some "Outer"
  inner := [
    { kind := "FieldDecl", name := some "second" },
    { kind := "NamespaceDecl", name := some "C", inner := [
      { kind := "CXXRecordDecl", name := some "Inner", inner := [
        { kind := "CXXRecordDecl", name := some "Outer", inner := [
          { kind := "FieldDecl", name := some "deep" }] }] }] },
    { kind := "CXXMethodDecl", name := some "run", symbol := some "_ZN1A1B5Outer3runEv" }]

/-- The repetition opens no class where it is one, so its members go to the innermost class, and the
two classes below it are finished. Where no class is open it opens one itself, and a whole tree
leaves none open. -/
theorem scopes_are_left_as_found_midway :
    let after := visit Demangler.silent outerAgain midway
    Restores Demangler.silent outerAgain midway after ∧
    after.qualifiers = ["B", "A"] ∧
    (after.openClasses.map fun c => (c.name, c.fields.map fun entry => entry.member.name)) =
      [("Outer", ["first", "second"]), ("Around", [])] ∧
    after.finished.map Class.fullName = ["A::Done", "A::B::C::Outer", "A::B::C::Inner"] ∧
    ¬OpensFrom midway outerAgain [] ∧ OpensFrom midway outerAgain [0, 0, 1] ∧
    OpensFrom {} outerAgain [] ∧ (visit Demangler.silent outerAgain {}).openClasses = [] ∧
    ∃ collection, collect Demangler.silent nested = .ok collection ∧
      (visit Demangler.silent nested {}).openClasses = [] ∧ collection.classes.length = 2 := by
  obtain ⟨hrestores, -, -⟩ := scopes_are_left_as_found Demangler.silent outerAgain midway
  obtain ⟨-, hempty, -⟩ := scopes_are_left_as_found Demangler.silent outerAgain {}
  obtain ⟨-, -, hcollected⟩ := scopes_are_left_as_found Demangler.silent nested {}
  have hcollect : collect Demangler.silent nested = .ok _ := rfl
  exact ⟨hrestores, rfl, rfl, rfl, by decide, by decide, by decide, hempty rfl, _, hcollect,
    (hcollected _ hcollect).1, rfl⟩

end Walk

end ClassAtlas
