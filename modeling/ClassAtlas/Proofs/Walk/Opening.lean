import Mathlib.Data.Option.Basic
import ClassAtlas.Proofs.Ast.Address
import ClassAtlas.Walk
/-!
# Which records open a class

A walk decides with the scopes that it holds open whether a record opens a class, and what the
class is called. The same can be read off the tree: whether the record at an address opens a
class depends on the record that opens the innermost class around it
(`ClassAtlas.Walk.Opens`), which is the first of the addresses above that opens one
(`ClassAtlas.Walk.opener?`, `ClassAtlas.Walk.opener?_eq_find?`), and the full name of the class
has the names of the namespaces above (`ClassAtlas.Walk.spaceNames`). No scope is opened or
closed here; that the walk comes to the same is the subject of `ClassAtlas.Walk.visit_nodeAt`.
-/

namespace ClassAtlas

namespace Walk

open Ast (ancestors)

/-! ### Openings -/

/-- The name that a node is declared with, empty if it has none. -/
def declaredName (root : Ast.Node) (p : List Nat) : String :=
  (root.nodeAt p).name.getD ""

/-- The record at an address opens a class, if the innermost class around it is opened by the
record at `around`: it has a name, and not the one that is kept of the class around it. -/
def OpensIn (root : Ast.Node) (around : Option (List Nat)) (p : List Nat) : Prop :=
  (root.nodeAt p).declKind = .record ∧
    ∃ name ∈ (root.nodeAt p).properName, ∀ q ∈ around, Name.bare (declaredName root q) ≠ name

instance (root : Ast.Node) (around : Option (List Nat)) (p : List Nat) :
    Decidable (OpensIn root around p) :=
  inferInstanceAs (Decidable ((root.nodeAt p).declKind = .record ∧
    ∃ name ∈ (root.nodeAt p).properName, ∀ q ∈ around, Name.bare (declaredName root q) ≠ name))

/-- **The record that opens the innermost class around an address.** -/
def opener? (root : Ast.Node) : List Nat → Option (List Nat)
  | [] => none
  | _ :: above => if OpensIn root (opener? root above) above then some above else opener? root above

/-- **The record at an address opens a class.** -/
def Opens (root : Ast.Node) (p : List Nat) : Prop :=
  OpensIn root (opener? root p) p

instance (root : Ast.Node) : DecidablePred (Opens root) := fun p =>
  inferInstanceAs (Decidable (OpensIn root (opener? root p) p))

variable {root : Ast.Node} {p q : List Nat}

/-- The proper name of a node is the one that it is declared with, if that is not empty. -/
theorem mem_properName_iff {name : String} :
    name ∈ (root.nodeAt p).properName ↔ declaredName root p = name ∧ name ≠ "" := by
  rw [Ast.Node.properName, Option.mem_filter_iff, decide_eq_true_iff, declaredName]
  cases (root.nodeAt p).name with
  | none => simp [eq_comm]
  | some declared => simp

theorem opener?_cons (k : Nat) :
    opener? root (k :: p) = if Opens root p then some p else opener? root p := rfl

theorem opener?_cons_of_opens (h : Opens root p) (k : Nat) : opener? root (k :: p) = some p := by
  rw [opener?_cons, if_pos h]

theorem opener?_cons_of_not_opens (h : ¬Opens root p) (k : Nat) :
    opener? root (k :: p) = opener? root p := by
  rw [opener?_cons, if_neg h]

/-- **The innermost class around an address** is opened by the first address above that opens
one. -/
theorem opener?_eq_find? : opener? root p = (ancestors p).find? (Opens root ·) := by
  induction p with
  | nil => rfl
  | cons k above ih =>
    rw [Ast.ancestors_cons, List.find?_cons]
    by_cases h : Opens root above
    · rw [opener?_cons_of_opens h, decide_eq_true h]
    · rw [opener?_cons_of_not_opens h, decide_eq_false h, ih]

theorem mem_ancestors_of_opener? (h : opener? root p = some q) : q ∈ ancestors p := by
  rw [opener?_eq_find?] at h
  exact List.mem_of_find?_eq_some h

theorem opens_of_opener? (h : opener? root p = some q) : Opens root q := by
  rw [opener?_eq_find?] at h
  simpa using List.find?_some h

/-- Below a record that opens a class, the innermost class is that one or lies in it. -/
theorem exists_opener?_of_opens (h : Opens root p) (hpq : p ∈ ancestors q) :
    ∃ r, opener? root q = some r ∧ p <:+ r := by
  induction q with
  | nil => simp at hpq
  | cons k above ih =>
    rw [Ast.ancestors_cons, List.mem_cons] at hpq
    rcases hpq with rfl | hmem
    · exact ⟨p, opener?_cons_of_opens h k, List.suffix_rfl⟩
    · by_cases habove : Opens root above
      · exact ⟨above, opener?_cons_of_opens habove k, (Ast.mem_ancestors.mp hmem).1⟩
      · rw [opener?_cons_of_not_opens habove]
        exact ih hmem

/-- What is below a record that opens a class has another class around it than the record. -/
theorem opener?_ne_of_opens (h : Opens root p) (hpq : p ∈ ancestors q) :
    opener? root q ≠ opener? root p := by
  obtain ⟨r, hr, hsuffix⟩ := exists_opener?_of_opens h hpq
  rw [hr]
  intro heq
  obtain ⟨habove, hne⟩ := Ast.mem_ancestors.mp (mem_ancestors_of_opener? heq.symm)
  exact hne (habove.eq_of_length (le_antisymm habove.length_le hsuffix.length_le))

theorem has_of_opens (h : Opens root p) : root.Has p :=
  Ast.Node.has_of_declKind (by rw [h.1]; decide)

/-! ### Names -/

/-- The name of a namespace, unless it is anonymous. -/
def spaceName? (node : Ast.Node) : Option String :=
  if node.declKind = .scope then node.properName else none

/-- Only a namespace has the name of one. -/
theorem spaceName?_of_ne_scope {node : Ast.Node} (h : node.declKind ≠ .scope) :
    spaceName? node = none :=
  if_neg h

/-- **The names of the namespaces above an address**, outermost first. Anonymous ones do not
count. -/
def spaceNames (root : Ast.Node) (p : List Nat) : List String :=
  (ancestors p).reverse.filterMap fun q => spaceName? (root.nodeAt q)

theorem spaceNames_cons (k : Nat) :
    spaceNames root (k :: p) = spaceNames root p ++ (spaceName? (root.nodeAt p)).toList := by
  rw [spaceNames, Ast.ancestors_cons, List.reverse_cons, List.filterMap_append]
  cases h : spaceName? (root.nodeAt p) <;> simp [spaceNames, h]

/-- **The class that the record at an address opens**, as it is opened. -/
def headAt (root : Ast.Node) (p : List Nat) : Class :=
  Class.new (declaredName root p) (qualify (spaceNames root p).reverse (declaredName root p))
    (classInfo (root.nodeAt p))

end Walk

end ClassAtlas
