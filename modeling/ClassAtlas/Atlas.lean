import ClassAtlas.Ast.Dump
import ClassAtlas.Inheritance.Resolution
import ClassAtlas.Model.Order
import ClassAtlas.Walk
/-!
# Atlases

An atlas holds the classes of a compilation unit. It is made from a dump in three steps: the dump
is read, its classes are collected, and inheritance is resolved (`ClassAtlas.Atlas.ofDump`). Each
step can fail, and the first that does decides the outcome. What was asked of the demangler is
part of the outcome also where it fails (`ClassAtlas.Traced`).
-/

namespace ClassAtlas

/-- **An atlas**: the classes of a compilation unit with their inherited members. -/
structure Atlas where
  /-- The name of the source file. -/
  fileName : String
  /-- The classes. -/
  classes : List Class := []
  /-- The missing bases. -/
  unresolved : List UnresolvedBase := []
  deriving Repr, Inhabited

/-- The atlas with the members of every class in canonical order. -/
def Atlas.sortMembers (atlas : Atlas) : Atlas :=
  { atlas with classes := atlas.classes.map Class.sortMembers }

/-- **The position of the first class** that the given name stands for. -/
def Atlas.findClass? (atlas : Atlas) (qualified : String) :
    Option (Fin atlas.classes.length) :=
  atlas.classes.findFinIdx? fun c => c.isNamed qualified

/-- The default limit on the length of a chain of ancestors. -/
def defaultDepth : Nat :=
  64

/-- The atlas of a compilation unit from its tree. -/
def Atlas.ofTree (demangler : Demangler) (limit : Nat) (fileName : String) (root : Ast.Node) :
    Traced Atlas :=
  let collected := collectTraced demangler root
  { result := collected.result.bind fun classes =>
      (Inheritance.resolve limit classes).map fun resolution =>
        { fileName, classes := resolution.classes, unresolved := resolution.unresolved }
    requests := collected.requests }

/-- **The atlas of a compilation unit from its dump.** -/
def Atlas.ofDump (demangler : Demangler) (limit : Nat) (fileName dump : String) :
    Traced Atlas :=
  match Ast.Node.ofDump dump with
  | .error fault => ⟨.error (.invalidDump dump fault), []⟩
  | .ok root => Atlas.ofTree demangler limit fileName root

/-- **The atlas of a source file**, by a compiler that prints its dump for some arguments or
fails. -/
def Atlas.ofSource (compile : List String → Option String) (demangler : Demangler) (limit : Nat)
    (fileName : String) (arguments : List String) : Traced Atlas :=
  match compile arguments with
  | none => ⟨.error .compileFailed, []⟩
  | some dump => Atlas.ofDump demangler limit fileName dump

/-! ### From a tree -/

section OfTree

variable {demangler : Demangler} {limit : Nat} {fileName : String} {root : Ast.Node}

/-- What was asked is settled before the classes are resolved. -/
theorem Atlas.ofTree_eq {collection : Collection}
    (hcollect : collect demangler root = .ok collection) :
    ofTree demangler limit fileName root =
      { result := (Inheritance.resolve limit collection.classes).map fun resolution =>
          { fileName, classes := resolution.classes, unresolved := resolution.unresolved }
        requests := collection.requests } := by
  rw [ofTree, collectTraced_of_collect hcollect]
  rfl

/-- No atlas is made of a tree that is refused, and nothing is asked about it. -/
theorem Atlas.ofTree_of_refused {e : Error} (h : collect demangler root = .error e) :
    ofTree demangler limit fileName root = ⟨.error e, []⟩ := by
  rw [ofTree, collectTraced_of_refused h]
  rfl

end OfTree

end ClassAtlas
