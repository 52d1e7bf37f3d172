import ClassAtlas.Proofs.Walk.Opening
/-!
# What a visit yields

A visit leaves the scopes around a node as they were, and whatever it does to the state of the
walk is to add something: members to the innermost open class, finished classes, and requests
(`ClassAtlas.Walk.Yield`, `ClassAtlas.Walk.State.add`). What it adds is read off the tree, from
the addresses of the subtree in their two orders (`ClassAtlas.Walk.yieldOver`): the members are
those whose innermost class is the one around the node, and the finished classes those that the
records of the subtree open, each with its own members (`ClassAtlas.Walk.classAt`).

The two agree wherever the walk has come to (`ClassAtlas.Walk.visit_nodeAt`). The invariant is
that the walk **stands at an address** (`ClassAtlas.Walk.Stands`): its scopes are those of the
address, and its requests those of the part of the tree that comes before.
-/

namespace ClassAtlas

/-- The class as it was opened, without members. -/
def Class.head (c : Class) : Class :=
  { c with methods := [], fields := [] }

/-- The class with more members. -/
def Class.addMembers (c : Class) (methods : List (Entry Method)) (fields : List (Entry Field)) :
    Class :=
  { c with methods := c.methods ++ methods, fields := c.fields ++ fields }

namespace Walk

/-! ### Additions to a state -/

/-- **What a visit adds** to the state of a walk. -/
structure Yield where
  /-- The methods of the innermost class around the node. -/
  methods : List (Entry Method) := []
  /-- The fields of the innermost class around the node. -/
  fields : List (Entry Field) := []
  /-- The finished classes. -/
  finished : List Class := []
  /-- The requests to the demangler. -/
  requests : List (Option String) := []

/-- Two additions one after the other. -/
def Yield.append (y z : Yield) : Yield where
  methods := y.methods ++ z.methods
  fields := y.fields ++ z.fields
  finished := y.finished ++ z.finished
  requests := y.requests ++ z.requests

/-- **The state with an addition.** Without an open class the members are dropped. -/
def State.add (state : State) (y : Yield) : State where
  qualifiers := state.qualifiers
  openClasses := state.openClasses.modifyHead fun c => c.addMembers y.methods y.fields
  finished := state.finished ++ y.finished
  requests := state.requests ++ y.requests

theorem State.add_empty (state : State) : state.add {} = state := by
  obtain ⟨qualifiers, openClasses, finished, requests⟩ := state
  cases openClasses <;> simp [State.add, Class.addMembers]

theorem State.add_add (state : State) (y z : Yield) :
    (state.add y).add z = state.add (y.append z) := by
  obtain ⟨qualifiers, openClasses, finished, requests⟩ := state
  cases openClasses <;> simp [State.add, Yield.append, Class.addMembers]

/-! ### What the tree says -/

section Sites

variable (demangler : Demangler) (root : Ast.Node)

/-- The addresses of nodes of some kinds among the given ones that lie in the class opened at
`around`, and in no class within it. -/
def sitesIn (isKind : Ast.Kind → Bool) (around : Option (List Nat)) (sites : List (List Nat)) :
    List (List Nat) :=
  sites.filter fun q => isKind (root.nodeAt q).declKind ∧ opener? root q = around

/-- The requests for the methods among the given addresses. -/
def requestsOf (sites : List (List Nat)) : List (Option String) :=
  (sites.filter fun q => (root.nodeAt q).declKind.isFunction).map fun q => (root.nodeAt q).symbol

/-- The addresses that come before the given one in a tree. -/
def earlier (q : List Nat) : List (List Nat) :=
  (root.preOrder []).takeWhile (· ≠ q)

/-- **The field at an address.** -/
def fieldAt (q : List Nat) : Entry Field where
  member := fieldOf (root.nodeAt q)

/-- **The method at an address** of a class with the given full name, with the answer to the
request that follows those for all methods before it. -/
def methodAt (className : String) (q : List Nat) : Entry Method where
  member := methodOf (root.nodeAt q) className
    (demangler (requestsOf root (earlier root q)) (root.nodeAt q).symbol)

/-- The addresses of the fields in the class that the record at an address opens. -/
def fieldSites (p : List Nat) : List (List Nat) :=
  sitesIn root (· == .field) (some p) ((root.nodeAt p).preOrder p)

/-- The addresses of the methods in the class that the record at an address opens. -/
def methodSites (p : List Nat) : List (List Nat) :=
  sitesIn root Ast.Kind.isFunction (some p) ((root.nodeAt p).preOrder p)

/-- **The class that the record at an address opens**, with its members. -/
def classAt (p : List Nat) : Class :=
  (headAt root p).addMembers
    ((methodSites root p).map (methodAt demangler root (headAt root p).fullName))
    ((fieldSites root p).map (fieldAt root))

/-- The full name of the class that is opened at an address, if any. -/
def openName (around : Option (List Nat)) : String :=
  around.elim "" fun p => (headAt root p).fullName

/-- **What is to be added for some addresses**, given in document order and in the order of
completion, by a walk that is inside of the class opened at `around`. -/
def yieldOver (around : Option (List Nat)) (pre post : List (List Nat)) : Yield where
  methods := (sitesIn root Ast.Kind.isFunction around pre).map
    (methodAt demangler root (openName root around))
  fields := (sitesIn root (· == .field) around pre).map (fieldAt root)
  finished := (post.filter (Opens root ·)).map (classAt demangler root)
  requests := requestsOf root pre

end Sites

variable {demangler : Demangler} {root : Ast.Node} {p : List Nat} {state : State}

theorem sitesIn_append {isKind : Ast.Kind → Bool} {around : Option (List Nat)}
    (sites sites' : List (List Nat)) :
    sitesIn root isKind around (sites ++ sites') =
      sitesIn root isKind around sites ++ sitesIn root isKind around sites' :=
  List.filter_append ..

theorem requestsOf_append (sites sites' : List (List Nat)) :
    requestsOf root (sites ++ sites') = requestsOf root sites ++ requestsOf root sites' := by
  rw [requestsOf, List.filter_append, List.map_append]
  rfl

theorem yieldOver_append (around : Option (List Nat)) (pre pre' post post' : List (List Nat)) :
    yieldOver demangler root around (pre ++ pre') (post ++ post') =
      (yieldOver demangler root around pre post).append
        (yieldOver demangler root around pre' post') := by
  simp [yieldOver, Yield.append, sitesIn_append, requestsOf_append]

/-! ### Where a walk stands -/

/-- **The walk stands at an address** and has some addresses before it: its scopes are those of
the address, and it has made the requests for all that comes before in the tree. -/
structure Stands (root : Ast.Node) (p : List Nat) (sites : List (List Nat)) (state : State) :
    Prop where
  /-- The namespaces are those above the address. -/
  qualifiers : state.qualifiers = (spaceNames root p).reverse
  /-- The innermost open class is the one around the address. -/
  opened : state.openClasses.head?.map Class.head = (opener? root p).map (headAt root)
  /-- The requests are those for the addresses before. -/
  requests : ∃ before after, root.preOrder [] = before ++ sites ++ after ∧
    state.requests = requestsOf root before

/-- The namespaces and classes around the children of a node are the same for each. -/
theorem Stands.sibling {k : Nat} {sites : List (List Nat)} (h : Stands root (k :: p) sites state)
    (l : Nat) : Stands root (l :: p) sites state where
  qualifiers := by rw [h.qualifiers, spaceNames_cons, spaceNames_cons]
  opened := h.opened
  requests := h.requests

theorem Stands.left {sites sites' : List (List Nat)} (h : Stands root p (sites ++ sites') state) :
    Stands root p sites state where
  qualifiers := h.qualifiers
  opened := h.opened
  requests := by
    obtain ⟨before, after, hsplit, hrequests⟩ := h.requests
    exact ⟨before, sites' ++ after, by simpa using hsplit, hrequests⟩

/-- After an addition that makes the requests for some addresses the walk has them behind it. -/
theorem Stands.add {sites sites' : List (List Nat)} (h : Stands root p (sites ++ sites') state)
    {y : Yield} (hy : y.requests = requestsOf root sites) : Stands root p sites' (state.add y) where
  qualifiers := h.qualifiers
  opened := by
    rw [← h.opened]
    cases hopen : state.openClasses <;> simp [State.add, hopen, Class.addMembers, Class.head]
  requests := by
    obtain ⟨before, after, hsplit, hrequests⟩ := h.requests
    refine ⟨before ++ sites, after, by simpa using hsplit, ?_⟩
    rw [requestsOf_append, ← hrequests, ← hy]
    rfl

end Walk

end ClassAtlas
