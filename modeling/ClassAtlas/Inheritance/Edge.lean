import ClassAtlas.Error
import ClassAtlas.Inheritance.Lookup
/-!
# The edges above a class

Following the bases of a class, their bases and so on gives a list of edges in pre-order: each
leads along a route of positions to an ancestor, or names a base that is missing
(`ClassAtlas.Inheritance.Edge`). An ancestor that is reached in two ways has two edges. A limit
bounds the length of the routes. There is no other test for cycles: a class that is its own
ancestor has routes of every length, so its edges exceed every limit
(`ClassAtlas.Inheritance.edgesWithin`).
-/

namespace ClassAtlas

namespace Inheritance

/-- **An edge above a class** in a list of classes. -/
inductive Edge (classes : List Class) where
  /-- A base that leads to an ancestor, by the positions of the classes on the way, nearest
  first. -/
  | reached (route : List (Fin classes.length))
  /-- A base that is missing. -/
  | missing (base : UnresolvedBase)
  deriving DecidableEq, Repr

variable {classes : List Class}

/-- An edge above the class at a position, seen from a class that declares it as a base. -/
def Edge.via (i : Fin classes.length) : Edge classes → Edge classes
  | .reached route => .reached (i :: route)
  | .missing base => .missing base

/-- The missing base of an edge. -/
def Edge.missing? : Edge classes → Option UnresolvedBase
  | .reached _ => none
  | .missing base => some base

/-- The missing base that a declared base becomes. -/
def unresolved (declared fromName : String) : UnresolvedBase :=
  ⟨Name.bare declared, fromName⟩

/-- **The edges of one base**, given the edges above the class that it stands for, if those are
within the limit. -/
def edgesOfBase (classes : List Class)
    (above : Fin classes.length → Option (List (Edge classes))) (fromName : String)
    (base : Ast.BaseClause) : Option (List (Edge classes)) :=
  match lookup? classes base.declared fromName with
  | none => some [.missing (unresolved base.declared fromName)]
  | some i => (above i).map fun edges => .reached [i] :: edges.map (Edge.via i)

/-- The edges of a list of bases, one after the other. -/
def edgesOfBases (classes : List Class)
    (above : Fin classes.length → Option (List (Edge classes))) (fromName : String) :
    List Ast.BaseClause → Option (List (Edge classes))
  | [] => some []
  | base :: bases => do
      let first ← edgesOfBase classes above fromName base
      let rest ← edgesOfBases classes above fromName bases
      return first ++ rest

/-- **The edges above a class** whose routes have at most so many positions, or `none` if there
is a longer one. -/
def edgesWithin (classes : List Class) : Nat → Class → Option (List (Edge classes))
  | 0, c => edgesOfBases classes (fun _ => none) c.fullName c.info.bases
  | limit + 1, c =>
      edgesOfBases classes (fun i => edgesWithin classes limit classes[i]) c.fullName c.info.bases

/-- The edges above a class, which need not be in the list. -/
def edges (classes : List Class) (limit : Nat) (c : Class) : Except Error (List (Edge classes)) :=
  match edgesWithin classes limit c with
  | some found => .ok found
  | none => .error (.tooDeep c.fullName limit)

/-- The chain of ancestors along a route. Its links drop what the classes have inherited, which is
nothing unless they have been resolved before. -/
def chainOf (classes : List Class) (route : List (Fin classes.length)) : List Declared :=
  route.map fun i => classes[i].declared

end Inheritance

end ClassAtlas
