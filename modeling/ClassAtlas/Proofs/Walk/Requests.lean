import ClassAtlas.Atlas
import ClassAtlas.Proofs.Walk.Collection
/-!
# What the demangler is asked

A walk asks the demangler about every method of the tree, once and in document order
(`ClassAtlas.Walk.requests_in_document_order`). What is around a method has no say in that: it is
asked about outside of all classes too, where the answer is dropped, and inside of nodes of any
kind. Nothing else is asked, so two demanglers that give the same answers to these requests, one
after the other (`ClassAtlas.Demangler.AgreesAlong`), cannot be told apart.

A tree that is refused is refused before anything is asked, so the refusal is the same whatever
the demangler is.
-/

namespace ClassAtlas

/-- **Two demanglers agree along some requests** when they give the same answer to each of them,
made after the ones that stand before it. -/
def Demangler.AgreesAlong (demangler demangler' : Demangler) (requests : List (Option String)) :
    Prop :=
  ∀ earlier request later, requests = earlier ++ request :: later →
    demangler' earlier request = demangler earlier request

namespace Walk

variable {demangler demangler' : Demangler} {root : Ast.Node} {p q : List Nat}

/-! ### The requests of a tree -/

/-- The methods of a tree in document order. -/
def methodsOf (root : Ast.Node) : List (List Nat) :=
  (root.preOrder []).filter fun q => (root.nodeAt q).declKind.isFunction

theorem lists_methodsOf (root : Ast.Node) :
    Ast.Lists Ast.ComesBefore (fun q => (root.nodeAt q).declKind.isFunction = true)
      (methodsOf root) := by
  have hmethods : Ast.Lists Ast.ComesBefore
      (fun q => (root.nodeAt q).declKind.isFunction = true) _ :=
    (Ast.Node.lists_preOrder root (p := []) trivial).restrict
      fun _ h => ⟨List.nil_suffix, Ast.Node.has_of_isKind rfl h⟩
  simp only [Bool.decide_eq_true] at hmethods
  exact hmethods

/-- The demangler was asked about every method of a tree that was collected. -/
theorem requests_of_collect {collection : Collection} {methods : List (List Nat)}
    (hcollect : collect demangler root = .ok collection)
    (hmethods : Ast.Lists Ast.ComesBefore
      (fun q => (root.nodeAt q).declKind.isFunction = true) methods) :
    collection.requests = methods.map fun q => (root.nodeAt q).symbol := by
  rw [(collect_eq_ok_iff.mp hcollect).2.2,
    hmethods.unique (lists_methodsOf root) fun _ _ => Ast.ComesBefore.asymm]
  rfl

/-- The request for a method follows those for all methods before it. -/
theorem requestsOf_eq_append (hq : (root.nodeAt q).declKind.isFunction = true) :
    ∃ later, requestsOf root (root.preOrder []) =
      requestsOf root (earlier root q) ++ (root.nodeAt q).symbol :: later := by
  have hmem : q ∈ root.preOrder [] :=
    ((Ast.Node.lists_preOrder root (p := []) trivial).mem_iff q).mpr
      ⟨List.nil_suffix, Ast.Node.has_of_isKind rfl hq⟩
  obtain ⟨before, after, hsplit⟩ := List.append_of_mem hmem
  refine ⟨requestsOf root after, ?_⟩
  have hown : requestsOf root (q :: after) = (root.nodeAt q).symbol :: requestsOf root after := by
    simp [requestsOf, hq]
  rw [earlier_eq hsplit, ← hown, ← requestsOf_append, hsplit]

/-! ### Demanglers that agree -/

section Agree

variable (h : demangler.AgreesAlong demangler' (requestsOf root (root.preOrder [])))

include h

/-- A method is displayed the same under demanglers that agree along the requests of the tree. -/
theorem methodAt_congr (hq : (root.nodeAt q).declKind.isFunction = true) (className : String) :
    methodAt demangler' root className q = methodAt demangler root className q := by
  obtain ⟨later, hsplit⟩ := requestsOf_eq_append hq
  rw [methodAt, methodAt, h _ _ later hsplit]

theorem classAt_congr (hp : root.Has p) :
    classAt demangler' root p = classAt demangler root p := by
  rw [classAt, classAt]
  congr 1
  exact List.map_congr_left fun q hq =>
    methodAt_congr h (((lists_methodSites hp).mem_iff q).mp hq).1 _

/-- **Demanglers that agree along the requests of a tree cannot be told apart** by what is
collected from it. -/
theorem collect_congr : collect demangler' root = collect demangler root := by
  by_cases haccepted : root.declKind = .unit ∧ root.inner ≠ []
  · rw [collect_eq haccepted.1 haccepted.2, collect_eq haccepted.1 haccepted.2]
    congr 2
    exact List.map_congr_left fun p hp =>
      classAt_congr h (has_of_opens (of_decide_eq_true (List.mem_filter.mp hp).2))
  · cases hcollect : collect demangler root with
    | ok collection =>
      obtain ⟨hunit, hinner, -⟩ := collect_eq_ok_iff.mp hcollect
      exact absurd ⟨hunit, hinner⟩ haccepted
    | error e =>
      rw [collect_eq_error_iff] at hcollect ⊢
      exact hcollect

end Agree

/-- **The demangler is asked about every method of the tree**, constructors and destructors among
them, once and in document order, wherever the method stands, and about nothing else: any demangler
that agrees along these requests leads to the same classes. When a tree is refused nothing has been
asked, and every demangler sees the same refusal. -/
theorem requests_in_document_order (demangler : Demangler) (root : Ast.Node) :
    (∀ collection, collect demangler root = .ok collection →
      ∃ methods, Ast.Lists Ast.ComesBefore
          (fun q => (root.nodeAt q).declKind.isFunction = true) methods ∧
        methods.Nodup ∧
        collection.requests = methods.map (fun q => (root.nodeAt q).symbol) ∧
        ∀ demangler', demangler.AgreesAlong demangler' collection.requests →
          collect demangler' root = .ok collection) ∧
    ∀ e, collect demangler root = .error e →
      (collectTraced demangler root).requests = [] ∧
      (∀ limit fileName, (Atlas.ofTree demangler limit fileName root).requests = []) ∧
      ∀ demangler', collect demangler' root = .error e := by
  constructor
  · intro collection hcollect
    have hmethods := lists_methodsOf root
    refine ⟨methodsOf root, hmethods, hmethods.nodup Ast.ComesBefore.irrefl,
      requests_of_collect hcollect hmethods, ?_⟩
    intro demangler' hagree
    rw [(collect_eq_ok_iff.mp hcollect).2.2] at hagree
    rw [collect_congr hagree, hcollect]
  · intro e hcollect
    refine ⟨by rw [collectTraced_of_refused hcollect],
      fun limit fileName => by rw [Atlas.ofTree_of_refused hcollect], fun demangler' => ?_⟩
    rw [collect_eq_error_iff] at hcollect ⊢
    exact hcollect

/-- Methods at every kind of place: outside of all classes, in a class, inside of another method of
it, in a record without a name and in a repetition of the class. -/
def scattered : Ast.Node where
  kind := "TranslationUnitDecl"
  inner := [
    { kind := "CXXMethodDecl", name := some "run", symbol := some "_ZN1A3runEv" },
    { kind := "CXXRecordDecl", name := some "A", inner := [
      { kind := "CXXConstructorDecl", inner := [
        { kind := "CXXMethodDecl", name := some "run", symbol := some "_ZN1A3runEv" }] },
      { kind := "CXXRecordDecl", inner := [
        { kind := "CXXDestructorDecl", symbol := some "_ZN1AD1Ev" }] },
      { kind := "CXXRecordDecl", name := some "A", inner := [
        { kind := "LambdaExpr", inner := [{ kind := "CXXMethodDecl", name := some "last" }] }] }] }]

/-- There are five requests, two of them alike and two without a symbol; what a demangler would
answer to a sixth does not matter. A tree with another root is refused without any. -/
theorem requests_in_document_order_scattered :
    (∃ collection, collect Demangler.silent scattered = .ok collection ∧
      collection.requests =
        [some "_ZN1A3runEv", none, some "_ZN1A3runEv", some "_ZN1AD1Ev", none] ∧
      collect (fun earlier _ => if earlier.length < 5 then none else some "six") scattered =
        .ok collection) ∧
    collect Demangler.silent {} = .error (.unexpectedRoot "") ∧
    (collectTraced Demangler.silent {}).requests = [] ∧
    (Atlas.ofTree Demangler.silent 64 "" {}).requests = [] := by
  obtain ⟨hnone, hatlas, -⟩ := (requests_in_document_order Demangler.silent {}).2 _ rfl
  refine ⟨⟨_, rfl, rfl, ?_⟩, rfl, hnone, hatlas 64 ""⟩
  obtain ⟨methods, -, -, -, hsame⟩ :=
    (requests_in_document_order Demangler.silent scattered).1 _ rfl
  refine hsame _ fun earlier request later hsplit => if_pos ?_
  have hlength : 5 = (earlier ++ request :: later).length := congrArg List.length hsplit
  rw [List.length_append, List.length_cons] at hlength
  omega

end Walk

end ClassAtlas
