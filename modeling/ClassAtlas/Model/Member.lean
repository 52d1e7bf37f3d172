import ClassAtlas.Text.Blank
/-!
# Members of classes

Fields and methods are told apart by what they carry, and treated alike by what shows them:
`ClassAtlas.Member` is the view that the two have in common, a name and a type.
-/

namespace ClassAtlas

/-- A field of a class. -/
structure Field where
  /-- The name. -/
  name : String
  /-- The type as the compiler spells it. -/
  spelling : Option String := none
  deriving DecidableEq, Repr, Inhabited

/-- What a dump says about a method, constructor or destructor. -/
structure MethodInfo where
  /-- The method is virtual. -/
  isVirtual : Bool := false
  /-- The method is pure. -/
  isPure : Bool := false
  /-- The method is a constant expression. -/
  isConstexpr : Bool := false
  /-- The method is a constructor. -/
  isConstructor : Bool := false
  /-- The method is a destructor. -/
  isDestructor : Bool := false
  /-- The type as the compiler spells it. -/
  spelling : Option String := none
  deriving DecidableEq, Repr, Inhabited

/-- A method, constructor or destructor of a class. -/
structure Method where
  /-- The displayed name: the demangled signature if there is one, the declared name
  otherwise. -/
  name : String
  /-- The declared name, qualified by the full name of the class. -/
  fullName : String
  /-- What else is known. -/
  info : MethodInfo := {}
  deriving DecidableEq, Repr, Inhabited

/-- **The common view of fields and methods.** -/
class Member (μ : Type) where
  /-- The displayed name. -/
  name : μ → String
  /-- The type as the compiler spells it. -/
  spelling : μ → Option String

instance : Member Field where
  name := Field.name
  spelling := Field.spelling

instance : Member Method where
  name := Method.name
  spelling := fun m => m.info.spelling

/-- The text shown next to the name of a member: its type, without blanks around it. -/
def Member.description {μ : Type} [Member μ] (m : μ) : String :=
  Text.trim ((Member.spelling m).getD "")

end ClassAtlas
