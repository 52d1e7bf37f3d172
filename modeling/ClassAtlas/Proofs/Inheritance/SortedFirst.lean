import ClassAtlas.Proofs.Inheritance.NamedChains
import ClassAtlas.Proofs.Model.Sorting
/-!
# Sorting before resolving

An atlas is shown with its members in canonical order. Whether the members have been put in order
before they are inherited as well makes no difference then
(`ClassAtlas.Inheritance.sorting_first_makes_no_difference`).

The order does not tell all members apart: two constructors can have one name and one type, and
still differ in what else is known of them. They stay as they stood, so it matters how the copies
that come along chains of the same names interleave. The argument looks at the members of one key at
a time. Sorting leaves them alone; and as copies along a route have one chain, what is copied from
the members of one key has one key too
(`ClassAtlas.Inheritance.sameWithinKeys_copied`). Hence two lists of classes with the same members
within every key (`ClassAtlas.Class.SameUpToSorting`) are resolved to lists that are so again, told
by names.
-/

namespace ClassAtlas

/-! ### Keys told by names -/

section Entries

variable {μ : Type} [Member μ] {entries entries' : List (Entry μ)}

@[simp] theorem Entry.sortKey_byNames (entry : Entry μ) :
    entry.byNames.sortKey = entry.sortKey := by
  rw [Entry.sortKey, Entry.chainNames_byNames]
  rfl

/-- Entries may be sorted first or told by names first. -/
theorem sortEntries_map_byNames (entries : List (Entry μ)) :
    (sortEntries entries).map Entry.byNames = sortEntries (entries.map Entry.byNames) := by
  refine List.map_mergeSort fun a _ b _ => ?_
  have horder : a.byNames.order b.byNames = a.order b := by
    rw [Entry.order, Entry.order, Entry.chainNames_byNames, Entry.chainNames_byNames]
    rfl
  rw [horder]

theorem SameWithinKeys.map_byNames (h : SameWithinKeys entries entries') :
    SameWithinKeys (entries.map Entry.byNames) (entries'.map Entry.byNames) := by
  have hwithKey : ∀ key (es : List (Entry μ)),
      withKey key (es.map Entry.byNames) = (withKey key es).map Entry.byNames := by
    intro key es
    rw [withKey, withKey, List.filter_map]
    simp [Function.comp_def]
  intro key
  rw [hwithKey, hwithKey, h key]

/-- The own members of one name and type are those of one key. -/
theorem filter_ownMembers (key : String × String) (entries : List (Entry μ)) :
    (ownMembers entries).filter (fun m => Member.sortKey m = key) =
      ownMembers (withKey ([], key) entries) := by
  rw [ownMembers, ownMembers, withKey, List.filter_map, List.filter_filter, List.filter_filter]
  refine congrArg (List.map Entry.member) (List.filter_congr fun entry _ => ?_)
  rcases hchain : entry.chain with - | chain
  · simp [Entry.isOwn, Entry.sortKey, Entry.chainNames, hchain]
  · simp [Entry.isOwn, hchain]

/-- **What is copied along one chain has the same members within every key**, if the members that it
is copied from have. -/
theorem Inheritance.sameWithinKeys_copied (h : SameWithinKeys entries entries')
    (chain : List Declared) :
    SameWithinKeys ((ownMembers entries).map fun m => (⟨m, some chain⟩ : Entry μ))
      ((ownMembers entries').map fun m => ⟨m, some chain⟩) := by
  intro key
  obtain ⟨names, key⟩ := key
  have hwithKey : ∀ ms : List μ,
      withKey (names, key) (ms.map fun m => (⟨m, some chain⟩ : Entry μ)) =
        (ms.filter fun m => chain.map Declared.fullName = names ∧ Member.sortKey m = key).map
          fun m => ⟨m, some chain⟩ := by
    intro ms
    rw [withKey, List.filter_map]
    refine congrArg _ (List.filter_congr fun m _ => ?_)
    simp [Entry.sortKey, Entry.chainNames]
  rw [hwithKey, hwithKey]
  -- a key with other names is the key of none of the copies
  by_cases hnames : chain.map Declared.fullName = names
  · simp only [hnames, true_and]
    rw [filter_ownMembers, filter_ownMembers, h]
  · simp only [hnames, false_and, decide_false, List.filter_false]

end Entries

/-! ### Classes -/

/-- **Two classes are the same but for the order of members with different keys.** -/
structure Class.SameUpToSorting (c d : Class) : Prop where
  /-- The name is the same. -/
  name : d.name = c.name
  /-- The full name is the same. -/
  fullName : d.fullName = c.fullName
  /-- What else is known is the same. -/
  info : d.info = c.info
  /-- The methods of each key are the same. -/
  methods : SameWithinKeys d.methods c.methods
  /-- The fields of each key are the same. -/
  fields : SameWithinKeys d.fields c.fields

/-- A sorted class is the same up to sorting. -/
theorem Class.sameUpToSorting_sortMembers (c : Class) : c.SameUpToSorting c.sortMembers :=
  ⟨rfl, rfl, rfl, sortEntries_sameWithinKeys c.methods, sortEntries_sameWithinKeys c.fields⟩

/-- **Classes that are the same up to sorting are the same when they are sorted.** -/
theorem Class.SameUpToSorting.sortMembers_eq {c d : Class} (h : c.SameUpToSorting d) :
    d.sortMembers = c.sortMembers := by
  rw [Class.sortMembers, Class.sortMembers, h.methods.sortEntries_eq, h.fields.sortEntries_eq,
    h.name, h.fullName, h.info]

theorem Class.SameUpToSorting.edgeKey_eq {c d : Class} (h : c.SameUpToSorting d) :
    Inheritance.edgeKey c = Inheritance.edgeKey d := by
  rw [Inheritance.edgeKey, Inheritance.edgeKey, h.fullName, h.info]

/-- Classes may be sorted first or told by names first. -/
theorem Class.byNames_sortMembers (c : Class) : c.sortMembers.byNames = c.byNames.sortMembers := by
  rw [Class.byNames, Class.sortMembers, Class.byNames, Class.sortMembers]
  simp only [sortEntries_map_byNames]

namespace Inheritance

/-- The outcome of resolving as it is shown: sorted, with the chains told by names. -/
def Resolution.sortedByNames (r : Resolution) : Resolution :=
  { r with classes := r.classes.map fun c => c.sortMembers.byNames }

/-! ### Resolving -/

section Outcome

variable {xs ys : List Class} {f : Fin xs.length → Fin ys.length}
  (hsame : ∀ i, (xs.get i).SameUpToSorting (ys.get (f i)))

include hsame

/-- Along corresponding edges the same is inherited up to sorting. -/
theorem sameWithinKeys_inherited {μ : Type} [Member μ] (entries : Class → List (Entry μ))
    (members : Declared → List μ)
    (hmembers : ∀ c : Class, members c.declared = ownMembers (entries c))
    (hentries : ∀ i, SameWithinKeys (entries (ys.get (f i))) (entries (xs.get i)))
    (found : List (Edge xs)) :
    SameWithinKeys ((inherited ys members (found.map (Edge.map f))).map Entry.byNames)
      ((inherited xs members found).map Entry.byNames) := by
  rw [inherited_map_byNames, inherited_byNames]
  refine SameWithinKeys.flatMap fun route _ => ?_
  rcases List.eq_nil_or_concat' route with rfl | ⟨before, i, rfl⟩
  · exact SameWithinKeys.refl []
  · rw [namedCopies_map_concat fun j => (hsame j).fullName, namedCopies_concat, hmembers, hmembers]
    exact sameWithinKeys_copied (hentries i) _

/-- **Classes that are the same up to sorting inherit the same up to sorting**, told by names. -/
theorem sameUpToSorting_inherit {c d : Class} (h : c.SameUpToSorting d) (found : List (Edge xs)) :
    (inherit xs c found).byNames.SameUpToSorting
      (inherit ys d (found.map (Edge.map f))).byNames := by
  have hmethods := sameWithinKeys_inherited hsame Class.methods Declared.methods (fun _ => rfl)
    (fun i => (hsame i).methods) found
  have hfields := sameWithinKeys_inherited hsame Class.fields Declared.fields (fun _ => rfl)
    (fun i => (hsame i).fields) found
  refine ⟨h.name, h.fullName, h.info, ?_, ?_⟩
  · simp only [Class.byNames, inherit, List.map_append]
    exact h.methods.map_byNames.append hmethods
  · simp only [Class.byNames, inherit, List.map_append]
    exact h.fields.map_byNames.append hfields

end Outcome

/-- **Lists that are the same up to sorting come to the same outcome**, sorted and with the chains
told by names. -/
theorem resolve_sortedByNames_congr {xs ys : List Class}
    (h : List.Forall₂ Class.SameUpToSorting xs ys) (limit : Nat) :
    (resolve limit ys).map Resolution.sortedByNames =
      (resolve limit xs).map Resolution.sortedByNames := by
  have hkeys : xs.map edgeKey = ys.map edgeKey :=
    map_eq_map_of_forall₂ (fun _ _ hcd => hcd.edgeKey_eq) h
  have hsame := get_of_forall₂ h (length_eq_of_edgeKeys hkeys)
  obtain ⟨e, hr, hr'⟩ | ⟨r, r', hr, hr', hclasses, hunresolved⟩ :=
    resolve_of_keys hkeys limit (fun c d => c.byNames.SameUpToSorting d.byNames)
      fun i found => sameUpToSorting_inherit hsame (hsame i) found
  · rw [hr, hr']
  · have hsorted := map_eq_map_of_forall₂ (f := fun c : Class => c.sortMembers.byNames)
      (fun c d hcd => by
        rw [Class.byNames_sortMembers, Class.byNames_sortMembers]
        exact hcd.sortMembers_eq.symm) hclasses
    rw [hr, hr']
    simp only [Except.map, Resolution.sortedByNames, hsorted, hunresolved]

/-- **Sorting before resolving makes no difference** when the outcome is sorted anyway: resolving
fails with the same failure, or the missing bases are the same and the classes have the same members
in the same order, with the same names along their chains. -/
theorem sorting_first_makes_no_difference (limit : Nat) (classes : List Class) :
    (resolve limit (classes.map Class.sortMembers)).map Resolution.sortedByNames =
      (resolve limit classes).map Resolution.sortedByNames := by
  refine resolve_sortedByNames_congr ?_ limit
  rw [List.forall₂_map_right_iff, List.forall₂_same]
  exact fun c _ => c.sameUpToSorting_sortMembers

end Inheritance

end ClassAtlas
