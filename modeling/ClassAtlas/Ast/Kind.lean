/-!
# Kinds of nodes

A compiler's dump has a few hundred kinds of nodes, of which seven matter for an atlas of
classes. Every other kind is passed through.
-/

namespace ClassAtlas

namespace Ast

/-- **The kinds of nodes** that are told apart. -/
inductive Kind where
  /-- A whole compilation unit. -/
  | unit
  /-- A namespace. -/
  | scope
  /-- A class, struct or union. -/
  | record
  /-- A method. -/
  | method
  /-- A constructor. -/
  | constructor
  /-- A destructor. -/
  | destructor
  /-- A field. -/
  | field
  /-- Anything else. -/
  | other
  deriving DecidableEq, Repr, Inhabited

/-- The kind that a tag of the dump stands for. -/
def Kind.ofTag : String → Kind
  | "TranslationUnitDecl" => .unit
  | "NamespaceDecl" => .scope
  | "CXXRecordDecl" => .record
  | "CXXMethodDecl" => .method
  | "CXXConstructorDecl" => .constructor
  | "CXXDestructorDecl" => .destructor
  | "FieldDecl" => .field
  | _ => .other

/-- The tag of a kind. The kinds that are not told apart share one. -/
def Kind.tag : Kind → String
  | .unit => "TranslationUnitDecl"
  | .scope => "NamespaceDecl"
  | .record => "CXXRecordDecl"
  | .method => "CXXMethodDecl"
  | .constructor => "CXXConstructorDecl"
  | .destructor => "CXXDestructorDecl"
  | .field => "FieldDecl"
  | .other => "other"

/-- Methods, constructors and destructors: the kinds with a linker symbol. -/
def Kind.isFunction : Kind → Bool
  | .method => true
  | .constructor => true
  | .destructor => true
  | _ => false

/-- The tag of a kind stands for that kind. -/
theorem Kind.ofTag_tag (kind : Kind) : Kind.ofTag kind.tag = kind := by
  cases kind <;> rfl

/-- The tag of a compilation unit is the only one that stands for it. -/
theorem Kind.ofTag_eq_unit_iff {tag : String} :
    Kind.ofTag tag = .unit ↔ tag = "TranslationUnitDecl" := by
  unfold Kind.ofTag
  split <;> simp_all

end Ast

end ClassAtlas
