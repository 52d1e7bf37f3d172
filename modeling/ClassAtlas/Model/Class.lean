import ClassAtlas.Ast.Node
import ClassAtlas.Model.Member
import ClassAtlas.Name
/-!
# Classes

A class of an atlas holds its own members and, after inheritance has been resolved, copies of the
members of its ancestors. Each entry of a member list is an own member or a copy that carries
the **chain** of ancestors through which it came, nearest first
(`ClassAtlas.Entry`). The links of a chain are classes as they were declared
(`ClassAtlas.Declared`), with own members only: what an ancestor has inherited itself is no part
of the link.

That makes a difference only where classes are resolved that hold inherited members already. Such
a class could be kept whole in the links that lead to it; here every link drops the inherited
members (`ClassAtlas.Class.declared`). No more is ever read of a link than its names and own
members.
-/

namespace ClassAtlas

/-- What a dump says about a class. -/
structure ClassInfo where
  /-- The bases in declaration order. -/
  bases : List Ast.BaseClause := []
  /-- The word `class`, `struct` or `union`. -/
  tagUsed : Option String := none
  /-- The class is defined and not only declared. -/
  isComplete : Bool := false
  deriving DecidableEq, Repr, Inhabited

/-- **A class as it is declared**, with its own members only: a link of a chain. A class that has
inherited members already, because it is resolved again, is a link without them. -/
structure Declared where
  /-- The name. -/
  name : String
  /-- The name qualified by its namespaces. -/
  fullName : String
  /-- The own methods. -/
  methods : List Method := []
  /-- The own fields. -/
  fields : List Field := []
  /-- What else is known. -/
  info : ClassInfo := {}
  deriving DecidableEq, Repr, Inhabited

/-- **An entry of a member list**: a member, and the chain of ancestors through which it came,
nearest first. An own member has no chain. -/
structure Entry (μ : Type) where
  /-- The member. -/
  member : μ
  /-- The ancestors through which it came. -/
  chain : Option (List Declared) := none
  deriving DecidableEq, Repr, Inhabited

/-- **A class** with its own members and the copies that it has inherited. -/
structure Class where
  /-- The name. -/
  name : String
  /-- The name qualified by its namespaces. -/
  fullName : String
  /-- The methods. -/
  methods : List (Entry Method) := []
  /-- The fields. -/
  fields : List (Entry Field) := []
  /-- What else is known. -/
  info : ClassInfo := {}
  deriving DecidableEq, Repr, Inhabited

/-! ### Entries -/

variable {μ : Type}

/-- The entry is an own member. An empty chain is a chain too. -/
def Entry.isOwn (entry : Entry μ) : Bool :=
  entry.chain.isNone

/-- The entry came through at least one ancestor. -/
def Entry.isInherited (entry : Entry μ) : Bool :=
  entry.chain.any fun chain => !chain.isEmpty

/-- The full names of the ancestors through which the entry came, none for an own member. -/
def Entry.chainNames (entry : Entry μ) : List String :=
  (entry.chain.getD []).map Declared.fullName

/-- The own members of a list, in order. -/
def ownMembers (entries : List (Entry μ)) : List μ :=
  (entries.filter Entry.isOwn).map Entry.member

/-! ### Classes -/

/-- **A new class** without members. Both names are made bare. -/
def Class.new (name fullName : String) (info : ClassInfo) : Class where
  name := Name.bare name
  fullName := Name.bare fullName
  info := info

/-- The class is the one that the given name stands for. -/
def Class.isNamed (c : Class) (qualified : String) : Bool :=
  Name.same c.fullName qualified

/-- The class with its own members only. Inherited members are dropped, so of a class that has been
resolved before less is kept than it holds. -/
def Class.declared (c : Class) : Declared where
  name := c.name
  fullName := c.fullName
  methods := ownMembers c.methods
  fields := ownMembers c.fields
  info := c.info

/-- The class with one more field. -/
def Class.addField (c : Class) (field : Entry Field) : Class :=
  { c with fields := c.fields ++ [field] }

/-- The class with one more method. -/
def Class.addMethod (c : Class) (method : Entry Method) : Class :=
  { c with methods := c.methods ++ [method] }

end ClassAtlas
