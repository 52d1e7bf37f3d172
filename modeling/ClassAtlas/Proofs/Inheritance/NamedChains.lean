import ClassAtlas.Proofs.Inheritance.Correspondence
import ClassAtlas.Proofs.Inheritance.Flattening
/-!
# Chains told by names

The links of a chain are whole classes, and what is shown of them is their full names. Two outcomes
of resolving that come from different lists often differ in the links and agree in the names;
`ClassAtlas.Entry.byNames` keeps of every link the full name and nothing else.

Told by names, what a class inherits along a route are the members of the class at its end, all with
the names along the route (`ClassAtlas.Inheritance.namedCopies`). So to compare what is inherited
along corresponding edges of two lists (`ClassAtlas.Inheritance.inherited_byNames`) it is enough to
compare names and own members position by position.
-/

namespace ClassAtlas

/-- Of the ancestor its full name only. -/
def Declared.nameOnly (ancestor : Declared) : Declared where
  name := ""
  fullName := ancestor.fullName

/-- **The entry with the chain told by names**: of every link the full name is kept. -/
def Entry.byNames {μ : Type} (entry : Entry μ) : Entry μ :=
  entry.map id Declared.nameOnly

/-- **The class with all chains told by names.** -/
def Class.byNames (c : Class) : Class :=
  { c with methods := c.methods.map Entry.byNames, fields := c.fields.map Entry.byNames }

/-- The names along a chain are told. -/
@[simp] theorem Entry.chainNames_byNames {μ : Type} (entry : Entry μ) :
    entry.byNames.chainNames = entry.chainNames := by
  obtain ⟨member, chain⟩ := entry
  cases chain with
  | none => rfl
  | some chain => simp [Entry.byNames, Entry.map, Entry.chainNames, Declared.nameOnly]

namespace Inheritance

variable {μ : Type} {classes xs ys : List Class}

/-! ### Routes -/

/-- The route of an edge that leads to an ancestor. -/
def Edge.route? : Edge classes → Option (List (Fin classes.length))
  | .reached route => some route
  | .missing _ => none

/-- The chains of some edges are those along their routes. -/
theorem chains_eq_map (found : List (Edge classes)) :
    chains classes found = (found.filterMap Edge.route?).map (chainOf classes) := by
  rw [chains, List.map_filterMap]
  refine List.filterMap_congr fun edge _ => ?_
  cases edge <;> rfl

theorem filterMap_route?_map (f : Fin xs.length → Fin ys.length) (found : List (Edge xs)) :
    (found.map (Edge.map f)).filterMap Edge.route? =
      (found.filterMap Edge.route?).map (List.map f) := by
  rw [List.filterMap_map, List.map_filterMap]
  refine List.filterMap_congr fun edge _ => ?_
  cases edge <;> rfl

/-! ### Copies along a route -/

/-- The names along a route, as a chain that has nothing else. -/
def namesAlong (classes : List Class) (route : List (Fin classes.length)) : List Declared :=
  route.map fun i => { name := "", fullName := (classes.get i).fullName }

/-- **What is copied along a route**, told by names. -/
def namedCopies (classes : List Class) (members : Declared → List μ)
    (route : List (Fin classes.length)) : List (Entry μ) :=
  (copies members (chainOf classes route)).map Entry.byNames

/-- Along a route the members of the class at its end are copied, with the names along the route. -/
theorem namedCopies_concat (members : Declared → List μ) (route : List (Fin classes.length))
    (i : Fin classes.length) :
    namedCopies classes members (route ++ [i]) = (members (classes.get i).declared).map fun m =>
      ⟨m, some (namesAlong classes (route ++ [i]))⟩ := by
  rw [namedCopies, copies, getLast?_chainOf_concat, List.map_map]
  refine List.map_congr_left fun m _ => ?_
  simp only [Function.comp_apply, Entry.byNames, Entry.map, chainOf, namesAlong, List.map_map,
    Option.map_some]
  rfl

/-- Along corresponding routes of two lists stand the same names. -/
theorem namedCopies_map_concat {f : Fin xs.length → Fin ys.length}
    (hname : ∀ i, (ys.get (f i)).fullName = (xs.get i).fullName) (members : Declared → List μ)
    (route : List (Fin xs.length)) (i : Fin xs.length) :
    namedCopies ys members ((route ++ [i]).map f) = (members (ys.get (f i)).declared).map fun m =>
      ⟨m, some (namesAlong xs (route ++ [i]))⟩ := by
  have hnames : namesAlong ys ((route ++ [i]).map f) = namesAlong xs (route ++ [i]) := by
    rw [namesAlong, namesAlong, List.map_map]
    refine List.map_congr_left fun j _ => ?_
    rw [Function.comp_apply, hname]
  rw [← hnames, List.map_append]
  exact namedCopies_concat members (route.map f) (f i)

/-! ### What is inherited -/

/-- **What is inherited, told by names**, is route by route what is copied along it. -/
theorem inherited_byNames (members : Declared → List μ) (found : List (Edge classes)) :
    (inherited classes members found).map Entry.byNames =
      (found.filterMap Edge.route?).flatMap (namedCopies classes members) := by
  rw [inherited, chains_eq_map, List.map_flatMap, List.flatMap_map]
  rfl

/-- Along corresponding edges of another list the routes correspond. -/
theorem inherited_map_byNames (f : Fin xs.length → Fin ys.length) (members : Declared → List μ)
    (found : List (Edge xs)) :
    (inherited ys members (found.map (Edge.map f))).map Entry.byNames =
      (found.filterMap Edge.route?).flatMap fun route => namedCopies ys members (route.map f) := by
  rw [inherited_byNames, filterMap_route?_map, List.flatMap_map]

/-- **Along corresponding edges the same is inherited**, told by names, when the classes at
corresponding positions have the same names and the same members to be copied. -/
theorem inherited_byNames_congr {f : Fin xs.length → Fin ys.length} {members : Declared → List μ}
    (hname : ∀ i, (ys.get (f i)).fullName = (xs.get i).fullName)
    (hmembers : ∀ i, members (ys.get (f i)).declared = members (xs.get i).declared)
    (found : List (Edge xs)) :
    (inherited ys members (found.map (Edge.map f))).map Entry.byNames =
      (inherited xs members found).map Entry.byNames := by
  rw [inherited_map_byNames, inherited_byNames]
  refine List.flatMap_congr fun route _ => ?_
  rcases List.eq_nil_or_concat' route with rfl | ⟨before, i, rfl⟩
  · rfl
  · rw [namedCopies_map_concat hname, namedCopies_concat, hmembers]

end Inheritance

end ClassAtlas
