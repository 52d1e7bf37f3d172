import ClassAtlas.Ast.Kind
/-!
# The tree of a dump

A node keeps the eleven fields of a dumped node that matter here. All of them have a default,
so a node of which nothing is known is `{}`: it is of no particular kind and has no children.
-/

namespace ClassAtlas

namespace Ast

/-- The type that the compiler attaches to a declaration. -/
structure TypeClause where
  /-- The type as the compiler spells it. -/
  spelling : Option String := none
  deriving DecidableEq, Repr, Inhabited

/-- One entry in the list of bases of a class. -/
structure BaseClause where
  /-- The access specifier. -/
  access : String := ""
  /-- The base class. -/
  type : TypeClause := {}
  /-- The inheritance is virtual. This is recorded and has no effect. -/
  isVirtual : Bool := false
  deriving DecidableEq, Repr, Inhabited

/-- The base class as it is declared. -/
def BaseClause.declared (base : BaseClause) : String :=
  base.type.spelling.getD ""

/-- **A node of the dump.** -/
structure Node where
  /-- The tag of the kind. -/
  kind : String := ""
  /-- The name. -/
  name : Option String := none
  /-- The children in document order. -/
  inner : List Node := []
  /-- The linker symbol. -/
  symbol : Option String := none
  /-- The type. -/
  type : Option TypeClause := none
  /-- The method is virtual. -/
  isVirtual : Bool := false
  /-- The method is pure. -/
  isPure : Bool := false
  /-- The method is a constant expression. -/
  isConstexpr : Bool := false
  /-- The bases of a class in declaration order. -/
  bases : List BaseClause := []
  /-- The word `class`, `struct` or `union`. -/
  tagUsed : Option String := none
  /-- The class is defined here and not only declared. -/
  isComplete : Bool := false
  deriving Repr, Inhabited

/-- The kind of a node. -/
def Node.declKind (node : Node) : Kind :=
  Kind.ofTag node.kind

/-- The type of a node as the compiler spells it. -/
def Node.spelling (node : Node) : Option String :=
  node.type.bind TypeClause.spelling

/-- The name of a node, unless it is empty. -/
def Node.properName (node : Node) : Option String :=
  node.name.filter fun name => name ≠ ""

end Ast

end ClassAtlas
