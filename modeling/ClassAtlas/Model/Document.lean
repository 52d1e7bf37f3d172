import ClassAtlas.Json.Value
import ClassAtlas.Atlas
/-!
# Atlases as JSON

The JSON form of an atlas. What is absent is left out, except that a list is left out only where
it is the list of missing bases and empty; so an own member, which has no chain, differs from a
member with an empty chain, and an absent type from an empty one.
-/

namespace ClassAtlas

open Json

/-- A text that may be absent, as a member of an object. -/
def optionalText (key : String) (text : Option String) : List (String × Value) :=
  Value.optional key (text.map Value.string)

/-- A type. -/
def Ast.TypeClause.toJson (type : Ast.TypeClause) : Value :=
  .object (optionalText "qualType" type.spelling)

/-- A declared base. -/
def Ast.BaseClause.toJson (base : Ast.BaseClause) : Value :=
  .object
    [("access", .string base.access), ("type", base.type.toJson),
     ("isVirtual", .boolean base.isVirtual)]

/-- What is known about a class. -/
def ClassInfo.toJson (info : ClassInfo) : Value :=
  .object <|
    [("bases", .list (info.bases.map Ast.BaseClause.toJson))] ++
      optionalText "tagUsed" info.tagUsed ++
      [("completeDefinition", .boolean info.isComplete)]

/-- What is known about a method. -/
def MethodInfo.toJson (info : MethodInfo) : Value :=
  .object <|
    [("virtual", .boolean info.isVirtual), ("pure", .boolean info.isPure),
     ("constexpr", .boolean info.isConstexpr), ("isCtor", .boolean info.isConstructor),
     ("isDtor", .boolean info.isDestructor)] ++
      optionalText "qualType" info.spelling

/-- A chain, by the full names of its ancestors. -/
def chainJson (chain : List Declared) : Value :=
  .list (chain.map fun ancestor => .string ancestor.fullName)

/-- A method with its chain. -/
def methodJson (entry : Entry Method) : Value :=
  .object <|
    [("name", .string entry.member.name), ("fullName", .string entry.member.fullName),
     ("meta", entry.member.info.toJson)] ++
      Value.optional "baseChain" (entry.chain.map chainJson)

/-- A field with its chain. -/
def fieldJson (entry : Entry Field) : Value :=
  .object <|
    [("name", .string entry.member.name),
     ("meta", .object (optionalText "qualType" entry.member.spelling))] ++
      Value.optional "baseChain" (entry.chain.map chainJson)

/-- A class. -/
def Class.toJson (c : Class) : Value :=
  .object
    [("name", .string c.name), ("fullName", .string c.fullName),
     ("methods", .list (c.methods.map methodJson)), ("fields", .list (c.fields.map fieldJson)),
     ("meta", c.info.toJson)]

/-- A missing base. -/
def UnresolvedBase.toJson (missing : UnresolvedBase) : Value :=
  .object [("base", .string missing.base), ("forClass", .string missing.forClass)]

/-- **An atlas as JSON.** -/
def Atlas.toJson (atlas : Atlas) : Value :=
  .object <|
    [("fileName", .string atlas.fileName), ("classes", .list (atlas.classes.map Class.toJson))] ++
      (if atlas.unresolved.isEmpty then []
        else [("unresolved", .list (atlas.unresolved.map UnresolvedBase.toJson))])

end ClassAtlas
