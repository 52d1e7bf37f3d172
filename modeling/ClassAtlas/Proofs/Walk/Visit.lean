import ClassAtlas.Proofs.Walk.Yield
/-!
# Visits add what the tree says

A visit that begins where the walk stands at an address adds to the state what the subtree there
says, and leaves the scopes as they were (`ClassAtlas.Walk.visit_nodeAt`). The proof follows the
recursion of the visit. A record that opens a class is entered by putting the class in front of
the open ones (`ClassAtlas.Walk.enter_of_opens`), and what its children add to that class leaves
with it (`ClassAtlas.Walk.leave_record_add`); every other node adds what it is itself to the class
around it, and its children add to that class as well
(`ClassAtlas.Walk.enter_of_not_opens`). In both cases the walk stands at the first child after
entering, and at each next one after the child before it, which is all that the children need
(`ClassAtlas.Walk.visitAll_nodeAt`).
-/

namespace ClassAtlas

namespace Walk

open Ast (ancestors)

variable {demangler : Demangler} {root : Ast.Node} {p : List Nat} {state : State}

theorem updateClass_eq (update : Class → Class) (state : State) :
    state.updateClass update =
      { state with openClasses := state.openClasses.modifyHead update } := by
  obtain ⟨qualifiers, openClasses, finished, requests⟩ := state
  cases openClasses <;> rfl

/-! ### Entering and leaving -/

theorem isSelfRecord_iff {sites : List (List Nat)} (h : Stands root p sites state) {name : String} :
    isSelfRecord state name = true ↔
      ∃ q ∈ opener? root p, Name.bare (declaredName root q) = name := by
  have hopened := h.opened
  rw [isSelfRecord]
  cases hopen : state.openClasses.head? with
  | none =>
    rw [hopen, Option.map_none, eq_comm, Option.map_eq_none_iff] at hopened
    simp [hopened]
  | some c =>
    rw [hopen, Option.map_some, eq_comm, Option.map_eq_some_iff] at hopened
    obtain ⟨q, hq, hhead⟩ := hopened
    have hname : c.name = Name.bare (declaredName root q) := (congrArg Class.name hhead).symm
    simp [hq, hname]

/-- A record with a name that is new to the innermost class opens a class. -/
theorem openClass_of_not_self {node : Ast.Node} {name : String}
    (hname : node.properName = some name) (hself : isSelfRecord state name = false) :
    openClass node state = (.record, { state with
      openClasses := Class.new name (qualify state.qualifiers name) (classInfo node) ::
        state.openClasses }) := by
  simp [openClass, hname, hself]

/-- A record that opens a class is entered by putting the class in front. -/
theorem enter_of_opens {sites : List (List Nat)} (hstands : Stands root p sites state)
    (h : Opens root p) :
    enter demangler (root.nodeAt p) state =
      (.record, { state with openClasses := headAt root p :: state.openClasses }) := by
  obtain ⟨hkind, name, hname, hself⟩ := h
  have hnot : isSelfRecord state name = false := by
    rw [Bool.eq_false_iff, ne_eq, isSelfRecord_iff hstands]
    rintro ⟨q, hq, heq⟩
    exact hself q hq heq
  rw [enter, hkind, headAt, (mem_properName_iff.mp hname).1, ← hstands.qualifiers]
  exact openClass_of_not_self hname hnot

/-- The addresses before one in the list of all. -/
theorem earlier_eq {before after : List (List Nat)}
    (h : root.preOrder [] = before ++ p :: after) : earlier root p = before := by
  have hnodup : (before ++ p :: after).Nodup :=
    h ▸ (Ast.Node.lists_preOrder root (p := []) trivial).nodup Ast.ComesBefore.irrefl
  have hne : ∀ q ∈ before, q ≠ p := fun q hq heq =>
    (List.nodup_append.mp hnodup).2.2 q hq p List.mem_cons_self heq
  rw [earlier, h, List.takeWhile_append_of_pos (by simpa using hne)]
  simp

/-- The innermost open class has the full name of the class around the address. -/
theorem Stands.fullName {sites : List (List Nat)} (h : Stands root p sites state) {c : Class}
    (hc : state.openClasses.head? = some c) : c.fullName = openName root (opener? root p) := by
  have hopened := h.opened
  rw [hc, Option.map_some, eq_comm, Option.map_eq_some_iff] at hopened
  obtain ⟨q, hq, hhead⟩ := hopened
  rw [hq]
  exact (congrArg Class.fullName hhead).symm

section Own

variable {sites : List (List Nat)}

/-- A field is added to the innermost class. -/
theorem addField_nodeAt (hkind : (root.nodeAt p).declKind = .field) :
    addField (root.nodeAt p) state =
      state.add (yieldOver demangler root (opener? root p) [p] []) := by
  have hyield : yieldOver demangler root (opener? root p) [p] [] =
      { fields := [fieldAt root p] } := by
    simp [yieldOver, sitesIn, requestsOf, hkind, Ast.Kind.isFunction]
  rw [addField, updateClass_eq, hyield]
  simp [State.add, Class.addMembers, Class.addField, fieldAt]

/-- A method is asked about, and added to the innermost class. -/
theorem addMethod_nodeAt (hstands : Stands root p (p :: sites) state)
    (hkind : (root.nodeAt p).declKind.isFunction = true) :
    addMethod demangler (root.nodeAt p) state =
      state.add (yieldOver demangler root (opener? root p) [p] []) := by
  have hfield : (root.nodeAt p).declKind ≠ .field := fun hfield => by
    rw [hfield] at hkind
    cases hkind
  have hyield : yieldOver demangler root (opener? root p) [p] [] =
      { methods := [methodAt demangler root (openName root (opener? root p)) p]
        requests := [(root.nodeAt p).symbol] } := by
    simp [yieldOver, sitesIn, requestsOf, hkind, hfield]
  -- the answer is to the request that follows those made so far, and these are known
  obtain ⟨before, after, hsplit, hrequests⟩ := hstands.requests
  have hearlier : earlier root p = before := earlier_eq (by simpa using hsplit)
  rw [addMethod, updateClass_eq, hyield, hrequests, ← hearlier]
  cases hopen : state.openClasses with
  | nil => simp [State.add, hopen, hearlier, hrequests]
  | cons c around =>
    have hname := hstands.fullName (c := c) (by rw [hopen]; rfl)
    simp [State.add, hopen, hearlier, hrequests, Class.addMembers, Class.addMethod, methodAt,
      hname]

/-- Nothing is added for a node that is no member. -/
theorem yieldOver_of_not_member (hfield : (root.nodeAt p).declKind ≠ .field)
    (hmethod : (root.nodeAt p).declKind.isFunction = false) (around : Option (List Nat)) :
    yieldOver demangler root around [p] [] = {} := by
  simp [yieldOver, sitesIn, requestsOf, hfield, hmethod]

/-- A record that opens no class is passed through. -/
theorem openClass_of_not_opens (hstands : Stands root p sites state) (h : ¬Opens root p)
    (hkind : (root.nodeAt p).declKind = .record) :
    openClass (root.nodeAt p) state = (.none, state) := by
  rw [openClass]
  cases hname : (root.nodeAt p).properName with
  | none => rfl
  | some name =>
    have hself : isSelfRecord state name = true := by
      rw [isSelfRecord_iff hstands]
      by_contra hnone
      exact h ⟨hkind, name, hname, fun q hq heq => hnone ⟨q, hq, heq⟩⟩
    dsimp only
    rw [if_pos hself]

/-- **A node that opens no class** adds what it is itself, and no scope but that of a namespace
with a name. -/
theorem enter_of_not_opens (hstands : Stands root p (p :: sites) state) (h : ¬Opens root p) :
    enter demangler (root.nodeAt p) state =
      (if (spaceName? (root.nodeAt p)).isSome then .space else .none,
        { state.add (yieldOver demangler root (opener? root p) [p] []) with
          qualifiers := (spaceName? (root.nodeAt p)).toList ++ state.qualifiers }) := by
  cases hkind : (root.nodeAt p).declKind with
  | scope =>
    have hspace : spaceName? (root.nodeAt p) = (root.nodeAt p).properName := if_pos hkind
    rw [yieldOver_of_not_member (by rw [hkind]; decide) (by rw [hkind]; rfl), State.add_empty,
      enter, hkind, hspace]
    dsimp only
    rw [openSpace]
    cases (root.nodeAt p).properName <;> rfl
  | record =>
    rw [yieldOver_of_not_member (by rw [hkind]; decide) (by rw [hkind]; rfl), State.add_empty,
      enter, hkind, spaceName?_of_ne_scope (by rw [hkind]; decide)]
    exact openClass_of_not_opens hstands h hkind
  | field =>
    rw [enter, hkind, spaceName?_of_ne_scope (by rw [hkind]; decide), ← addField_nodeAt hkind]
    simp [addField, updateClass_eq]
  | method | constructor | destructor =>
    rw [enter, hkind, spaceName?_of_ne_scope (by rw [hkind]; decide),
      ← addMethod_nodeAt hstands (by rw [hkind]; rfl)]
    simp [addMethod, updateClass_eq]
  | unit | other =>
    rw [yieldOver_of_not_member (by rw [hkind]; decide) (by rw [hkind]; rfl), State.add_empty,
      enter, hkind, spaceName?_of_ne_scope (by rw [hkind]; decide)]
    rfl

end Own

/-! ### Visiting -/

/-- What is added inside of a class that is finished then goes into the class. -/
theorem leave_record_add (c : Class) (state : State) (y : Yield) :
    leave .record ({ state with openClasses := c :: state.openClasses }.add y) =
      state.add { finished := y.finished ++ [c.addMembers y.methods y.fields]
                  requests := y.requests } := by
  obtain ⟨qualifiers, openClasses, finished, requests⟩ := state
  cases openClasses <;> simp [leave, State.add, Class.addMembers]

/-- What is added inside of a namespace is added outside of it. -/
theorem leave_space_add (node : Ast.Node) (state : State) (y : Yield) :
    leave (if (spaceName? node).isSome then .space else .none)
        ({ state with qualifiers := (spaceName? node).toList ++ state.qualifiers }.add y) =
      state.add y := by
  cases spaceName? node <;> rfl

section Opened

/-- Nothing below a record that opens a class lies in the class around the record. -/
theorem sitesIn_opener?_of_opens (h : Opens root p) {sites : List (List Nat)}
    (hsites : ∀ q ∈ sites, p ∈ ancestors q) (isKind : Ast.Kind → Bool) :
    sitesIn root isKind (opener? root p) sites = [] := by
  rw [sitesIn, List.filter_eq_nil_iff]
  intro q hq
  simp [opener?_ne_of_opens h (hsites q hq)]

theorem sitesIn_cons_of_opens (h : Opens root p) {isKind : Ast.Kind → Bool}
    (hkind : isKind .record = false) (around : Option (List Nat)) (sites : List (List Nat)) :
    sitesIn root isKind around (p :: sites) = sitesIn root isKind around sites := by
  rw [sitesIn, List.filter_cons_of_neg (by simp [h.1, hkind])]
  rfl

theorem requestsOf_cons_of_opens (h : Opens root p) (sites : List (List Nat)) :
    requestsOf root (p :: sites) = requestsOf root sites := by
  rw [requestsOf, List.filter_cons_of_neg (by simp [h.1, Ast.Kind.isFunction])]
  rfl

/-- A class has the members that are added for what is below its record. -/
theorem classAt_of_opens (h : Opens root p) (post : List (List Nat)) :
    let below := yieldOver demangler root (some p)
      (Ast.overChildren Ast.Node.preOrder p (root.nodeAt p).inner.zipIdx) post
    classAt demangler root p = (headAt root p).addMembers below.methods below.fields := by
  rw [classAt, methodSites, fieldSites, Ast.Node.preOrder_eq, sitesIn_cons_of_opens h rfl,
    sitesIn_cons_of_opens h rfl]
  rfl

/-- For a record that opens a class, the class is added behind those below, and no member. -/
theorem yieldOver_of_opens (h : Opens root p) {pre post : List (List Nat)}
    (hpre : ∀ q ∈ pre, p ∈ ancestors q) :
    yieldOver demangler root (opener? root p) (p :: pre) (post ++ [p]) =
      { finished := (yieldOver demangler root (some p) pre post).finished ++
          [classAt demangler root p]
        requests := (yieldOver demangler root (some p) pre post).requests } := by
  have hmethods : sitesIn root Ast.Kind.isFunction (opener? root p) (p :: pre) = [] := by
    rw [sitesIn_cons_of_opens h rfl, sitesIn_opener?_of_opens h hpre]
  have hfields : sitesIn root (· == .field) (opener? root p) (p :: pre) = [] := by
    rw [sitesIn_cons_of_opens h rfl, sitesIn_opener?_of_opens h hpre]
  simp [yieldOver, hmethods, hfields, requestsOf_cons_of_opens h, h]

/-- For another node, what it is itself is added before what is below it. -/
theorem yieldOver_of_not_opens (h : ¬Opens root p) (around : Option (List Nat))
    (pre post : List (List Nat)) :
    yieldOver demangler root around (p :: pre) (post ++ [p]) =
      (yieldOver demangler root around [p] []).append
        (yieldOver demangler root around pre post) := by
  rw [← yieldOver_append]
  simp [yieldOver, h]

end Opened

/-- Below a record that opens a class, the class is the innermost one. -/
theorem Stands.below_of_opens {sites : List (List Nat)} (hstands : Stands root p (p :: sites) state)
    (h : Opens root p) :
    Stands root (0 :: p) sites
      { state with openClasses := headAt root p :: state.openClasses } where
  qualifiers := by
    have hnone : spaceName? (root.nodeAt p) = none := if_neg (by rw [h.1]; decide)
    rw [spaceNames_cons, hnone, hstands.qualifiers]
    simp
  opened := by
    rw [opener?_cons_of_opens h]
    rfl
  requests := by
    obtain ⟨before, after, hsplit, hrequests⟩ := hstands.requests
    refine ⟨before ++ [p], after, by simpa using hsplit, ?_⟩
    rw [requestsOf_append, requestsOf_cons_of_opens h, hrequests]
    exact (List.append_nil _).symm

/-- Below another node, the scopes are those around it and that of a namespace with a name. -/
theorem Stands.below_of_not_opens {sites : List (List Nat)}
    (hstands : Stands root p (p :: sites) state) (demangler : Demangler) (h : ¬Opens root p) :
    Stands root (0 :: p) sites
      { state.add (yieldOver demangler root (opener? root p) [p] []) with
        qualifiers := (spaceName? (root.nodeAt p)).toList ++ state.qualifiers } := by
  have hadd : Stands root p sites
      (state.add (yieldOver demangler root (opener? root p) [p] [])) :=
    Stands.add (show Stands root p ([p] ++ sites) state from hstands) rfl
  refine ⟨?_, ?_, hadd.requests⟩
  · rw [spaceNames_cons, hstands.qualifiers, List.reverse_append]
    cases spaceName? (root.nodeAt p) <;> rfl
  · rw [opener?_cons_of_not_opens h]
    exact hadd.opened

/-- A visit that begins where the walk stands at an address adds what is to be added for the
subtree. -/
def AddsAt (demangler : Demangler) (root : Ast.Node) (p : List Nat) : Prop :=
  ∀ state, Stands root p ((root.nodeAt p).preOrder p) state →
    visit demangler (root.nodeAt p) state =
      state.add (yieldOver demangler root (opener? root p) ((root.nodeAt p).preOrder p)
        ((root.nodeAt p).postOrder p))

/-- The children of a node, from the `k`-th on, add what is to be added for their subtrees if each
of them does. -/
theorem visitAll_nodeAt (h : ∀ k, root.Has (k :: p) → AddsAt demangler root (k :: p))
    {nodes : List Ast.Node} {k : Nat}
    (hnodes : ∀ numbered ∈ nodes.zipIdx k,
      root.Has (numbered.2 :: p) ∧ root.nodeAt (numbered.2 :: p) = numbered.1)
    (hstands : Stands root (k :: p) (Ast.overChildren Ast.Node.preOrder p (nodes.zipIdx k)) state) :
    visitAll demangler nodes state =
      state.add (yieldOver demangler root (opener? root (k :: p))
        (Ast.overChildren Ast.Node.preOrder p (nodes.zipIdx k))
        (Ast.overChildren Ast.Node.postOrder p (nodes.zipIdx k))) := by
  induction nodes generalizing k state with
  | nil => exact (State.add_empty state).symm
  | cons node nodes ih =>
    obtain ⟨⟨hhas, hnode⟩, hrest⟩ := List.forall_mem_cons.mp (List.zipIdx_cons ▸ hnodes)
    obtain rfl : root.nodeAt (k :: p) = node := hnode
    rw [List.zipIdx_cons, Ast.overChildren_cons] at hstands
    have hnext := (hstands.add (y := yieldOver demangler root (opener? root (k :: p))
      ((root.nodeAt (k :: p)).preOrder (k :: p)) ((root.nodeAt (k :: p)).postOrder (k :: p)))
      rfl).sibling (k + 1)
    rw [visitAll, h k hhas state hstands.left, ih hrest hnext, State.add_add, List.zipIdx_cons,
      Ast.overChildren_cons, Ast.overChildren_cons, yieldOver_append]
    rfl

/-- **A visit adds what the tree says**, wherever the walk has come to. -/
theorem visit_nodeAt (hp : root.Has p) : AddsAt demangler root p := by
  induction p, hp using Ast.Node.Has.induction with
  | step p hp ih =>
    intro state hstands
    have hchildren : ∀ numbered ∈ (root.nodeAt p).inner.zipIdx,
        root.Has (numbered.2 :: p) ∧ root.nodeAt (numbered.2 :: p) = numbered.1 :=
      fun _ hmem => Ast.Node.child_of_mem_zipIdx hp hmem
    rw [Ast.Node.preOrder_eq] at hstands
    rw [visit_eq, Ast.Node.preOrder_eq, Ast.Node.postOrder_eq]
    by_cases hopens : Opens root p
    · -- the children add to the class of the node, which none of them closes
      have hbelow := hstands.below_of_opens hopens
      have hmem : ∀ q ∈ Ast.overChildren Ast.Node.preOrder p (root.nodeAt p).inner.zipIdx,
          p ∈ ancestors q := fun q hq =>
        (((Ast.lists_overChildren Or.inr hp fun _ hk =>
          Ast.Node.lists_preOrder root hk).mem_iff q).mp hq).1
      rw [enter_of_opens hstands hopens]
      dsimp only
      rw [visitAll_nodeAt ih hchildren hbelow, opener?_cons_of_opens hopens, leave_record_add,
        yieldOver_of_opens hopens hmem, classAt_of_opens hopens]
    · -- the children add to the class around the node, behind what the node is itself
      have hbelow := hstands.below_of_not_opens demangler hopens
      rw [enter_of_not_opens hstands hopens]
      dsimp only
      rw [visitAll_nodeAt ih hchildren hbelow, opener?_cons_of_not_opens hopens,
        yieldOver_of_not_opens hopens, ← State.add_add]
      exact leave_space_add _ (state.add _) _

end Walk

end ClassAtlas
