import Mathlib.Data.List.Forall2
import Mathlib.Data.List.Nodup
import ClassAtlas.Proofs.Walk.Visit
/-!
# The classes of a compilation unit

What a walk collects is read off the tree (`ClassAtlas.Walk.collect_eq`): one class for each
record that opens one, in the order of completion
(`ClassAtlas.Walk.classes_in_order_of_completion`), and in each class the members below its record
that no class within it takes, in document order (`ClassAtlas.Walk.members_of_innermost_class`). So
no member is lost but those outside of all classes, and none is counted twice.

The displayed name of a method is what the demangler answers to its request, and the answer may
depend on the requests before. These are the requests for the methods that come before in the
document, whether or not they lie in a class.
-/

namespace ClassAtlas

namespace Walk

variable {demangler : Demangler} {root : Ast.Node} {p q : List Nat}

/-! ### The walk from the root -/

/-- At the root the walk stands before the whole tree. -/
theorem stands_root : Stands root [] (root.preOrder []) {} where
  qualifiers := rfl
  opened := rfl
  requests := ⟨[], [], by simp, rfl⟩

/-- **A compilation unit that is not empty is collected**, and what is found is what the tree
says. -/
theorem collect_eq (hunit : root.declKind = .unit) (hinner : root.inner ≠ []) :
    collect demangler root = .ok
      { classes := ((root.postOrder []).filter (Opens root ·)).map (classAt demangler root)
        requests := requestsOf root (root.preOrder []) } := by
  have hvisit : visit demangler root {} =
      State.add {} (yieldOver demangler root none (root.preOrder []) (root.postOrder [])) :=
    visit_nodeAt (p := []) trivial {} stands_root
  rw [collect_of_unit hunit hinner, hvisit]
  simp [State.add, yieldOver]

theorem collect_eq_ok_iff {collection : Collection} :
    collect demangler root = .ok collection ↔
      root.declKind = .unit ∧ root.inner ≠ [] ∧ collection =
        { classes := ((root.postOrder []).filter (Opens root ·)).map (classAt demangler root)
          requests := requestsOf root (root.preOrder []) } := by
  constructor
  · intro h
    have hunit : root.declKind = .unit := by
      by_contra hne
      rw [collect_of_not_unit hne] at h
      cases h
    have hinner : root.inner ≠ [] := by
      intro hnil
      rw [collect_of_empty hunit hnil] at h
      cases h
    rw [collect_eq hunit hinner] at h
    exact ⟨hunit, hinner, (Except.ok.inj h).symm⟩
  · rintro ⟨hunit, hinner, rfl⟩
    exact collect_eq hunit hinner

/-- **A tree is refused** when it is no compilation unit or an empty one, whatever the demangler
is. -/
theorem collect_eq_error_iff {e : Error} :
    collect demangler root = .error e ↔
      root.declKind ≠ .unit ∧ e = .unexpectedRoot root.kind ∨
        root.declKind = .unit ∧ root.inner = [] ∧ e = .emptyUnit := by
  by_cases hunit : root.declKind = .unit
  · by_cases hinner : root.inner = []
    · rw [collect_of_empty hunit hinner]
      simp [hunit, hinner, eq_comm]
    · rw [collect_of_unit hunit hinner]
      simp [hunit, hinner]
  · rw [collect_of_not_unit hunit]
    simp [hunit, eq_comm]

/-- The records that open a class, in the order of completion. -/
theorem lists_opens (root : Ast.Node) :
    Ast.Lists Ast.FinishesBefore (Opens root) ((root.postOrder []).filter (Opens root ·)) :=
  (Ast.Node.lists_postOrder root (p := []) trivial).restrict
    fun _ h => ⟨List.nil_suffix, has_of_opens h⟩

/-! ### Classes -/

/-- **What the record at an address says of its class.** Of what is above the record, the
namespaces count for the full name and nothing else does. -/
structure IsClassAt (root : Ast.Node) (p : List Nat) (c : Class) : Prop where
  /-- The name is the declared one, made bare. -/
  name : c.name = Name.bare (declaredName root p)
  /-- The full name has the namespaces in front, outermost first. -/
  fullName : c.fullName =
    Name.bare (String.intercalate "::" (spaceNames root p) ++ "::" ++ declaredName root p)
  /-- All else is taken over. -/
  info : c.info =
    { bases := (root.nodeAt p).bases
      tagUsed := (root.nodeAt p).tagUsed
      isComplete := (root.nodeAt p).isComplete }

theorem isClassAt_classAt (demangler : Demangler) (root : Ast.Node) (p : List Nat) :
    IsClassAt root p (classAt demangler root p) where
  name := rfl
  fullName := by
    change Name.bare (qualify (spaceNames root p).reverse (declaredName root p)) = _
    rw [qualify, List.reverse_reverse]
  info := rfl

/-- **The classes of a compilation unit are the classes that its records open**, one for each, a
class before the ones around it and else in document order. -/
theorem classes_in_order_of_completion (demangler : Demangler) {root : Ast.Node}
    (hunit : root.declKind = .unit) (hinner : root.inner ≠ []) :
    ∃ collection openings, collect demangler root = .ok collection ∧
      Ast.Lists Ast.FinishesBefore (Opens root) openings ∧
      List.Forall₂ (IsClassAt root) openings collection.classes := by
  refine ⟨_, _, collect_eq hunit hinner, lists_opens root, ?_⟩
  rw [List.forall₂_map_right_iff]
  exact List.forall₂_same.mpr fun p _ => isClassAt_classAt demangler root p

/-- A class in a namespace, repeated inside itself, with a class nested in it, a field on each side
of that one and a method behind; and a field outside of all classes. -/
def nested : Ast.Node where
  kind := "TranslationUnitDecl"
  inner := [
    { kind := "FieldDecl", name := some "stray" },
    { kind := "NamespaceDecl", name := some "A", inner := [
      { kind := "CXXRecordDecl", name := some "Outer", tagUsed := some "class", inner := [
        { kind := "CXXRecordDecl", name := some "Outer", inner := [
          { kind := "FieldDecl", name := some "first" }] },
        { kind := "CXXRecordDecl", name := some "Inner", inner := [
          { kind := "FieldDecl", name := some "deep" }] },
        { kind := "FieldDecl", name := some "last" },
        { kind := "CXXMethodDecl", name := some "run", symbol := some "_ZN1A5Outer3runEv" }] }] }]

/-- The nested class is finished first, and has the namespace in its full name but not the class
around it. -/
theorem classes_in_order_of_completion_nested :
    nested.declKind = .unit ∧ nested.inner ≠ [] ∧
      ∃ collection openings, collect Demangler.silent nested = .ok collection ∧
        Ast.Lists Ast.FinishesBefore (Opens nested) openings ∧
        List.Forall₂ (IsClassAt nested) openings collection.classes ∧
        collection.classes.map Class.fullName = ["A::Inner", "A::Outer"] := by
  have hunit : nested.declKind = .unit := rfl
  have hinner : nested.inner ≠ [] := List.cons_ne_nil _ _
  obtain ⟨collection, openings, hcollect, hopenings, hclasses⟩ :=
    classes_in_order_of_completion Demangler.silent hunit hinner
  obtain rfl := Except.ok.inj (hcollect.symm.trans rfl)
  exact ⟨hunit, hinner, _, openings, hcollect, hopenings, hclasses, rfl⟩

/-! ### Members -/

/-- What comes before an address in document order. -/
theorem lists_earlier (hq : root.Has q) :
    Ast.Lists Ast.ComesBefore (fun r => root.Has r ∧ Ast.ComesBefore r q) (earlier root q) := by
  have hall := Ast.Node.lists_preOrder root (p := []) trivial
  obtain ⟨before, after, hsplit⟩ :=
    List.append_of_mem ((hall.mem_iff q).mpr ⟨List.nil_suffix, hq⟩)
  have hsplit' : root.preOrder [] = before ++ q :: after := hsplit
  rw [earlier_eq hsplit']
  obtain ⟨hbefore, hrest, hcross⟩ := List.pairwise_append.mp (hsplit ▸ hall.ordered)
  -- an address of the tree is listed before `q`, is `q` or is listed behind it
  refine ⟨hbefore, fun r => ⟨fun hr => ?_, fun ⟨hr, hrq⟩ => ?_⟩⟩
  · refine ⟨((hall.mem_iff r).mp ?_).2, hcross r hr q List.mem_cons_self⟩
    exact hsplit ▸ List.mem_append_left _ hr
  · have hmem : r ∈ before ++ q :: after := hsplit ▸ (hall.mem_iff r).mpr ⟨List.nil_suffix, hr⟩
    rcases List.mem_append.mp hmem with hr | hr
    · exact hr
    · rcases List.mem_cons.mp hr with rfl | hr
      · exact absurd hrq (Ast.ComesBefore.irrefl r)
      · exact absurd hrq ((List.pairwise_cons.mp hrest).1 r hr).asymm

/-- The members of some kinds of the class opened at an address, in document order. -/
theorem lists_sitesIn (hp : root.Has p) {isKind : Ast.Kind → Bool}
    (hother : isKind .other = false) :
    Ast.Lists Ast.ComesBefore
      (fun q => isKind (root.nodeAt q).declKind = true ∧ opener? root q = some p)
      (sitesIn root isKind (some p) ((root.nodeAt p).preOrder p)) := by
  refine (Ast.Node.lists_preOrder root hp).restrict fun q h =>
    ⟨?_, Ast.Node.has_of_isKind hother h.1⟩
  exact (Ast.mem_ancestors.mp (mem_ancestors_of_opener? h.2)).1

theorem lists_fieldSites (hp : root.Has p) :
    Ast.Lists Ast.ComesBefore
      (fun q => (root.nodeAt q).declKind = .field ∧ opener? root q = some p)
      (fieldSites root p) :=
  (lists_sitesIn hp rfl).congr fun q => by rw [beq_iff_eq]

theorem lists_methodSites (hp : root.Has p) :
    Ast.Lists Ast.ComesBefore
      (fun q => (root.nodeAt q).declKind.isFunction = true ∧ opener? root q = some p)
      (methodSites root p) :=
  lists_sitesIn hp rfl

/-- What is listed for a class lies in that class. -/
theorem opener?_of_mem_sites (h : q ∈ fieldSites root p ++ methodSites root p) :
    opener? root q = some p := by
  rcases List.mem_append.mp h with h | h
  · exact (of_decide_eq_true (List.mem_filter.mp h).2).2
  · exact (of_decide_eq_true (List.mem_filter.mp h).2).2

/-- **No member is listed twice**, for one class or for two. -/
theorem nodup_sites {openings : List (List Nat)} (hnodup : openings.Nodup)
    (hhas : ∀ p ∈ openings, root.Has p) :
    (openings.flatMap fun p => fieldSites root p ++ methodSites root p).Nodup := by
  refine List.nodup_flatMap.mpr ⟨fun p hp => ?_, hnodup.imp fun {p p'} hne q hq hq' => hne ?_⟩
  · have hfields := lists_fieldSites (hhas p hp)
    have hmethods := lists_methodSites (hhas p hp)
    refine (hfields.nodup Ast.ComesBefore.irrefl).append
      (hmethods.nodup Ast.ComesBefore.irrefl) fun q hfield hmethod => ?_
    have hkind := ((hmethods.mem_iff q).mp hmethod).1
    rw [((hfields.mem_iff q).mp hfield).1] at hkind
    cases hkind
  · exact Option.some.inj ((opener?_of_mem_sites hq).symm.trans (opener?_of_mem_sites hq'))

/-- **The field at an address**, as an own member. -/
structure IsFieldAt (root : Ast.Node) (q : List Nat) (entry : Entry Field) : Prop where
  /-- The name may be missing. -/
  name : entry.member.name = (root.nodeAt q).name.getD ""
  /-- The type is taken over. -/
  spelling : entry.member.spelling = (root.nodeAt q).spelling
  /-- The field is no copy. -/
  chain : entry.chain = none

/-- **The method at an address** of a class with the given full name, as an own member. -/
structure IsMethodAt (demangler : Demangler) (root : Ast.Node) (className : String)
    (q : List Nat) (entry : Entry Method) : Prop where
  /-- The name is what the demangler says after the requests for the methods that come before,
  or else the declared name. -/
  name : ∃ before, Ast.Lists Ast.ComesBefore
      (fun r => (root.nodeAt r).declKind.isFunction = true ∧ Ast.ComesBefore r q) before ∧
    entry.member.name = Text.trim
      ((demangler (before.map fun r => (root.nodeAt r).symbol) (root.nodeAt q).symbol).getD
        (declaredName root q))
  /-- The full name has that of the class in front. -/
  fullName : entry.member.fullName = className ++ "::" ++ Text.trim (declaredName root q)
  /-- All else is taken over, but for the kind of the node. -/
  info : entry.member.info =
    { isVirtual := (root.nodeAt q).isVirtual
      isPure := (root.nodeAt q).isPure
      isConstexpr := (root.nodeAt q).isConstexpr
      isConstructor := decide ((root.nodeAt q).declKind = .constructor)
      isDestructor := decide ((root.nodeAt q).declKind = .destructor)
      spelling := (root.nodeAt q).spelling }
  /-- The method is no copy. -/
  chain : entry.chain = none

theorem isMethodAt_methodAt (demangler : Demangler) {root : Ast.Node} (className : String)
    {q : List Nat} (hq : root.Has q) :
    IsMethodAt demangler root className q (methodAt demangler root className q) where
  name := by
    refine ⟨_, ((lists_earlier hq).filter fun r =>
      (root.nodeAt r).declKind.isFunction = true).congr fun r => ?_, ?_⟩
    · exact ⟨fun h => ⟨h.2, h.1.2⟩, fun h => ⟨⟨Ast.Node.has_of_isKind rfl h.1, h.2⟩, h.1⟩⟩
    · simp only [methodAt, methodOf, requestsOf, declaredName, Bool.decide_eq_true]
  fullName := rfl
  info := rfl
  chain := rfl

/-- What holds of each method that is listed for a class holds along the methods of the class. -/
theorem forall₂_methods (hp : root.Has p) {R : List Nat → Entry Method → Prop}
    (h : ∀ q, root.Has q → R q (methodAt demangler root (headAt root p).fullName q)) :
    List.Forall₂ R (methodSites root p) (classAt demangler root p).methods := by
  change List.Forall₂ R _
    ((methodSites root p).map (methodAt demangler root (headAt root p).fullName))
  rw [List.forall₂_map_right_iff]
  refine List.forall₂_same.mpr fun q hq => h q ?_
  exact Ast.Node.has_of_isKind rfl (((lists_methodSites hp).mem_iff q).mp hq).1

/-- **Every member lies in the innermost class around it** and in no other. The fields and methods
of a class are those below its record for which no record in between opens a class, each once and
in document order; what lies in no class is left out. -/
theorem members_of_innermost_class (demangler : Demangler) {root : Ast.Node}
    {collection : Collection} (h : collect demangler root = .ok collection) :
    ∃ openings, Ast.Lists Ast.FinishesBefore (Opens root) openings ∧
      ∃ fields methods : List Nat → List (List Nat),
        (∀ p ∈ openings,
          Ast.Lists Ast.ComesBefore
            (fun q => (root.nodeAt q).declKind = .field ∧ opener? root q = some p) (fields p) ∧
          Ast.Lists Ast.ComesBefore
            (fun q => (root.nodeAt q).declKind.isFunction = true ∧ opener? root q = some p)
            (methods p)) ∧
        List.Forall₂ (fun p c => List.Forall₂ (IsFieldAt root) (fields p) c.fields ∧
          List.Forall₂ (IsMethodAt demangler root c.fullName) (methods p) c.methods)
          openings collection.classes ∧
        (openings.flatMap fun p => fields p ++ methods p).Nodup ∧
        ∀ q, opener? root q = none → q ∉ openings.flatMap fun p => fields p ++ methods p := by
  obtain ⟨-, -, rfl⟩ := collect_eq_ok_iff.mp h
  have hopenings := lists_opens root
  have hhas : ∀ p ∈ (root.postOrder []).filter (Opens root ·), root.Has p := fun p hp =>
    has_of_opens ((hopenings.mem_iff p).mp hp)
  refine ⟨_, hopenings, fieldSites root, methodSites root, fun p hp =>
    ⟨lists_fieldSites (hhas p hp), lists_methodSites (hhas p hp)⟩, ?_,
    nodup_sites (hopenings.nodup Ast.FinishesBefore.irrefl) hhas, fun q hq hmem => ?_⟩
  · rw [List.forall₂_map_right_iff]
    refine List.forall₂_same.mpr fun p hp => ⟨?_, ?_⟩
    · change List.Forall₂ _ _ ((fieldSites root p).map (fieldAt root))
      rw [List.forall₂_map_right_iff]
      exact List.forall₂_same.mpr fun q _ => ⟨rfl, rfl, rfl⟩
    · exact forall₂_methods (hhas p hp) fun q hq => isMethodAt_methodAt demangler _ hq
  · obtain ⟨p, -, hsite⟩ := List.mem_flatMap.mp hmem
    rw [opener?_of_mem_sites hsite] at hq
    cases hq

/-- The class keeps the field of its repetition and the field behind the nested class, which has
its own, and the stray field is in neither. -/
theorem members_of_innermost_class_nested :
    ∃ collection, collect Demangler.silent nested = .ok collection ∧
      (∃ openings, ∃ fields methods : List Nat → List (List Nat),
        Ast.Lists Ast.FinishesBefore (Opens nested) openings ∧
        List.Forall₂ (fun p c => List.Forall₂ (IsFieldAt nested) (fields p) c.fields ∧
          List.Forall₂ (IsMethodAt Demangler.silent nested c.fullName) (methods p) c.methods)
          openings collection.classes) ∧
      (collection.classes.map fun c => c.fields.map fun entry => entry.member.name) =
        [["deep"], ["first", "last"]] ∧
      (collection.classes.map fun c => c.methods.map fun entry => entry.member.fullName) =
        [[], ["A::Outer::run"]] := by
  have hcollect : collect Demangler.silent nested = .ok _ := rfl
  obtain ⟨openings, hopenings, fields, methods, -, hmembers, -, -⟩ :=
    members_of_innermost_class Demangler.silent hcollect
  exact ⟨_, hcollect, ⟨openings, fields, methods, hopenings, hmembers⟩, rfl, rfl⟩

end Walk

end ClassAtlas
