import ClassAtlas.Ast.Node
import ClassAtlas.Json.Record
/-!
# Reading a dump

`ClassAtlas.Ast.Node.ofDump` reads the text that a compiler prints for a compilation unit. Nodes,
bases and types are records in the sense of `ClassAtlas.Json.Shape`, so unknown members of a dump
are passed over and the first fault from the left is reported. Nodes contain nodes, so the values
of a node's fields go to their readers together with what each of them is as a list of children;
only the field that holds the children looks at that. `ClassAtlas.Ast.Node.ofTree_eq` says that
this is reading a record with a field of its own type.
-/

namespace ClassAtlas

namespace Ast

open Json

/-- The fields of a type. -/
def TypeClause.shape : Shape Tree TypeClause where
  name := "QualType"
  slots := [.of "qualType" (Tree.readOptional Tree.readString) fun a t => { t with spelling := a }]

/-- A type. -/
def TypeClause.ofTree (t : Tree) : Except Fault TypeClause :=
  TypeClause.shape.read {} t

/-- The fields of a base. Its type may be left out but is never `null`. -/
def BaseClause.shape : Shape Tree BaseClause where
  name := "BaseSpecifier"
  slots :=
    [.of "access" Tree.readString fun a b => { b with access := a },
     .of "type" TypeClause.ofTree fun a b => { b with type := a },
     .of "isVirtual" Tree.readBool fun a b => { b with isVirtual := a }]

/-- A base. -/
def BaseClause.ofTree (t : Tree) : Except Fault BaseClause :=
  BaseClause.shape.read {} t

/-- **The fields of a node**, read from values that hold a tree, with a reader for the
children. -/
def Node.shape {τ : Type} (tree : τ → Tree) (readInner : τ → Except Fault (List Node)) :
    Shape τ Node where
  name := "AstNode"
  slots :=
    [.of "kind" (Tree.readString ∘ tree) fun a n => { n with kind := a },
     .of "name" (Tree.readOptional Tree.readString ∘ tree) fun a n => { n with name := a },
     .of "inner" readInner fun a n => { n with inner := a },
     .of "mangledName" (Tree.readOptional Tree.readString ∘ tree)
       fun a n => { n with symbol := a },
     .of "type" (Tree.readOptional TypeClause.ofTree ∘ tree) fun a n => { n with type := a },
     .of "virtual" (Tree.readBool ∘ tree) fun a n => { n with isVirtual := a },
     .of "pure" (Tree.readBool ∘ tree) fun a n => { n with isPure := a },
     .of "constexpr" (Tree.readBool ∘ tree) fun a n => { n with isConstexpr := a },
     .of "bases" (Tree.readList BaseClause.ofTree ∘ tree) fun a n => { n with bases := a },
     .of "tagUsed" (Tree.readOptional Tree.readString ∘ tree)
       fun a n => { n with tagUsed := a },
     .of "completeDefinition" (Tree.readBool ∘ tree) fun a n => { n with isComplete := a }]

mutual

/-- **A node**, with all the nodes below it. -/
def Node.ofTree : Tree → Except Fault Node
  | .object members ending =>
      (Node.shape Prod.fst Prod.snd).readMembers (Tree.skip ∘ Prod.fst) ending
        (membersWithInner members) [] {}
  | .list items ending =>
      readSlots ending (Node.shape Prod.fst Prod.snd).slots (itemsWithInner items) {}
  | t => .error (t.mismatch (.record "AstNode"))

/-- A list of children. -/
def innerOfTree : Tree → Except Fault (List Node)
  | .list items ending => nodesOfItems ending items
  | t => .error (t.mismatch .list)

/-- The elements of a list of children, and then its end. -/
def nodesOfItems (ending : ListEnd) : List Tree → Except Fault (List Node)
  | [] => do
      ending.check
      return []
  | item :: items => do
      let node ← Node.ofTree item
      return node :: (← nodesOfItems ending items)

/-- Elements of a list, each with what it is as a list of children. -/
def itemsWithInner : List Tree → List (Tree × Except Fault (List Node))
  | [] => []
  | item :: items => (item, innerOfTree item) :: itemsWithInner items

/-- Members of an object, each with what its value is as a list of children. -/
def membersWithInner : List (Lexeme × Tree) → List (Lexeme × Tree × Except Fault (List Node))
  | [] => []
  | (key, value) :: members => (key, value, innerOfTree value) :: membersWithInner members

end

/-! ### A node as a record -/

theorem nodesOfItems_eq (ending : ListEnd) (items : List Tree) :
    nodesOfItems ending items = readItems Node.ofTree ending items := by
  induction items with
  | nil => rfl
  | cons item items ih => simp only [nodesOfItems, readItems, ih]

theorem innerOfTree_eq (t : Tree) : innerOfTree t = Tree.readList Node.ofTree t := by
  cases t with
  | list items ending => exact nodesOfItems_eq ending items
  | _ => rfl

/-- A value with what it is as a list of children. -/
def withInner (t : Tree) : Tree × Except Fault (List Node) :=
  (t, innerOfTree t)

theorem itemsWithInner_eq (items : List Tree) : itemsWithInner items = items.map withInner := by
  induction items with
  | nil => rfl
  | cons item items ih => simp only [itemsWithInner, List.map_cons, withInner, ih]

theorem membersWithInner_eq (members : List (Lexeme × Tree)) :
    membersWithInner members = members.map fun m => (m.1, withInner m.2) := by
  induction members with
  | nil => rfl
  | cons m members ih => simp only [membersWithInner, List.map_cons, withInner, ih]

/-- **Reading a node** is reading a record whose children are nodes. -/
theorem Node.ofTree_eq (t : Tree) :
    Node.ofTree t = (Node.shape id (Tree.readList Node.ofTree)).read {} t := by
  have hshape :
      (Node.shape Prod.fst Prod.snd).comap withInner =
        Node.shape id (Tree.readList Node.ofTree) := by
    rw [← funext innerOfTree_eq]
    rfl
  cases t with
  | object members ending =>
    rw [Node.ofTree, membersWithInner_eq, ← Shape.readMembers_comap, hshape]
    rfl
  | list items ending =>
    rw [Node.ofTree, itemsWithInner_eq, ← readSlots_comap]
    exact congrArg (fun shape : Shape Tree Node => readSlots ending shape.slots items {}) hshape
  | _ => rfl

/-- **A dump**: a text that is one node. -/
def Node.ofDump (text : String) : Except Fault Node :=
  readDocument Node.ofTree text

end Ast

end ClassAtlas
