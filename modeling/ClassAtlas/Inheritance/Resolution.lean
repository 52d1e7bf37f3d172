import ClassAtlas.Inheritance.Edge
/-!
# Inherited members

Resolving inheritance gives every class copies of its ancestors' own members, one for each edge
that leads to the ancestor, with the chain of that edge. Everything is looked up in the list of
classes as it is given, so a copy is never copied on. Bases that are missing are collected once
each, in the order in which they are met (`ClassAtlas.Inheritance.resolve`).
-/

namespace ClassAtlas

namespace Inheritance

/-- **The outcome of resolving**: the classes with their inherited members, in order, and the
missing bases. -/
structure Resolution where
  /-- The classes. -/
  classes : List Class
  /-- The missing bases, each once. -/
  unresolved : List UnresolvedBase
  deriving Repr, Inhabited

/-- Own members of the last ancestor of a chain, as copies that came through the chain. -/
def copies {μ : Type} (members : Declared → List μ) (chain : List Declared) : List (Entry μ) :=
  match chain.getLast? with
  | none => []
  | some ancestor => (members ancestor).map fun m => ⟨m, some chain⟩

/-- The chains of the edges that lead to an ancestor. -/
def chains (classes : List Class) (found : List (Edge classes)) : List (List Declared) :=
  found.filterMap fun edge =>
    match edge with
    | .reached route => some (chainOf classes route)
    | .missing _ => none

/-- **A class with its inherited members** behind its own. -/
def inherit (classes : List Class) (c : Class) (found : List (Edge classes)) : Class :=
  let through := chains classes found
  { c with
    methods := c.methods ++ through.flatMap (copies Declared.methods)
    fields := c.fields ++ through.flatMap (copies Declared.fields) }

/-- The edges above each class of a list, unless those of one of them exceed the limit. The first
such class is named. -/
def edgesOfAll (classes : List Class) (limit : Nat) :
    List Class → Except Error (List (List (Edge classes)))
  | [] => .ok []
  | c :: cs => do
      let first ← edges classes limit c
      let rest ← edgesOfAll classes limit cs
      return first :: rest

/-- **Resolving inheritance** in a list of classes. -/
def resolve (limit : Nat) (classes : List Class) : Except Error Resolution := do
  let found ← edgesOfAll classes limit classes
  return {
    classes := List.zipWith (inherit classes) classes found
    unresolved := (found.flatten.filterMap Edge.missing?).eraseDups }

end Inheritance

end ClassAtlas
