import ClassAtlas.Atlas
import ClassAtlas.Proofs.Inheritance.Preference
import ClassAtlas.Proofs.Inheritance.Repetition
/-!
# Two searches by name

A class is looked for by its name in two places: among the classes of a list, when it is the base of
another one, and among the classes of the atlas that comes of the list. The first search prefers a
complete class (`ClassAtlas.Inheritance.lookup?`), the second takes the first one with the name
(`ClassAtlas.Atlas.findClass?`). Both find nothing where no class has the name, but where a
declaration stands before the definition they find different classes. That this is the only case
(`ClassAtlas.Inheritance.DefinedFirst`) follows from what the lookup prefers: the class that is
preferred to all with its name is the first of them, unless the first is a mere declaration.

So what a chain says about the origin of a member can be followed by name only as far as names are
defined first (`ClassAtlas.Inheritance.FollowedByName`).
-/

namespace ClassAtlas

namespace Inheritance

variable {classes : List Class} {qualified fromName : String} {limit : Nat}

/-- **A name is defined first** in a list of classes: if any class with the name is complete, the
first class with the name is. -/
def DefinedFirst (classes : List Class) (qualified : String) : Prop :=
  ∀ i, firstNamed? classes qualified = some i → ∀ j, (classes.get j).isNamed qualified = true →
    (classes.get j).info.isComplete = true → (classes.get i).info.isComplete = true

instance (classes : List Class) (qualified : String) : Decidable (DefinedFirst classes qualified) :=
  inferInstanceAs (Decidable (∀ i, firstNamed? classes qualified = some i →
    ∀ j, (classes.get j).isNamed qualified = true →
      (classes.get j).info.isComplete = true → (classes.get i).info.isComplete = true))

/-! ### The first and the preferred class -/

theorem exists_firstNamed? {j : Fin classes.length}
    (h : (classes.get j).isNamed qualified = true) :
    ∃ i, firstNamed? classes qualified = some i ∧ (classes.get i).isNamed qualified = true ∧
      ∀ k, (classes.get k).isNamed qualified = true → i ≤ k := by
  rcases hfirst : firstNamed? classes qualified with - | i
  · rw [firstNamed?, List.findFinIdx?_eq_none_iff] at hfirst
    exact absurd h (hfirst _ (List.get_mem classes j))
  · obtain ⟨hnamed, hbefore⟩ := List.findFinIdx?_eq_some_iff.mp hfirst
    exact ⟨i, rfl, hnamed, fun k hk => not_lt.mp fun hlt => hbefore k hlt hk⟩

/-- **The preferred class with a name is the first** exactly when the name is defined first. -/
theorem firstNamed?_eq_some_iff_of_preferred {j : Fin classes.length}
    (hnamed : (classes.get j).isNamed qualified = true)
    (hbest : ∀ k, (classes.get k).isNamed qualified = true → Preferred classes j k) :
    firstNamed? classes qualified = some j ↔ DefinedFirst classes qualified := by
  obtain ⟨i, hfirst, hi, hle⟩ := exists_firstNamed? hnamed
  constructor
  · intro hj i hi k hk hcomplete
    obtain rfl : j = i := Option.some.inj (hj.symm.trans hi)
    exact (hbest k hk).1 hcomplete
  · intro hdefined
    have halike : (classes.get i).info.isComplete = (classes.get j).info.isComplete := by
      rw [Bool.eq_iff_iff]
      exact ⟨(hbest i hi).1, hdefined i hfirst j hnamed⟩
    rw [hfirst, le_antisymm (hle j hnamed) ((hbest i hi).2 halike)]

/-- A name finds a class in the one search exactly when it does in the other. -/
theorem firstNamed?_eq_none_iff (h : ¬Name.same qualified fromName = true) :
    firstNamed? classes qualified = none ↔ lookup? classes qualified fromName = none := by
  rw [lookup?_eq_none_iff, or_iff_right h, firstNamed?, List.findFinIdx?_eq_none_iff]
  constructor
  · exact fun hnone i => hnone _ (List.get_mem classes i)
  · intro hnone c hc
    obtain ⟨i, rfl⟩ := List.mem_iff_get.mp hc
    exact hnone i

/-- **The searches find the same class** exactly when the name is defined first. -/
theorem firstNamed?_eq_lookup?_iff (h : ¬Name.same qualified fromName = true) :
    firstNamed? classes qualified = lookup? classes qualified fromName ↔
      DefinedFirst classes qualified := by
  rcases hlookup : lookup? classes qualified fromName with - | j
  · have hnone := (firstNamed?_eq_none_iff h).mpr hlookup
    refine iff_of_true hnone fun i hi => ?_
    rw [hnone] at hi
    cases hi
  · obtain ⟨-, hnamed, hbest⟩ := lookup?_eq_some_iff.mp hlookup
    exact firstNamed?_eq_some_iff_of_preferred hnamed hbest

/-! ### The atlas of a list -/

/-- The atlas that comes of resolving inheritance in a list. -/
def Resolution.atlas (r : Resolution) (fileName : String) : Atlas where
  fileName := fileName
  classes := r.classes
  unresolved := r.unresolved

/-- **Resolving changes no names**, so the first class with a name stands where it stood. -/
theorem findClass?_of_resolve {r : Resolution} (h : resolve limit classes = .ok r)
    (fileName qualified : String) :
    ((r.atlas fileName).findClass? qualified).map Fin.val =
      (firstNamed? classes qualified).map Fin.val := by
  obtain ⟨above, -, rfl⟩ := resolve_eq_ok_iff.mp h
  have hnames : (List.ofFn fun i => inherit classes (classes.get i) (above i)).map Class.fullName =
      classes.map Class.fullName := by
    have hname : Class.fullName ∘ (fun i => inherit classes (classes.get i) (above i)) =
        Class.fullName ∘ classes.get := rfl
    rw [List.map_ofFn, hname, ← List.map_ofFn, List.ofFn_get]
  have hfind := findFinIdx?_congr hnames.symm (by simp) fun name => Name.same name qualified
  have hval := congrArg (Option.map Fin.val) hfind
  rwa [Option.map_map] at hval

/-- At each position stands the class that stood there, with what it inherits. -/
theorem getElem?_of_resolve {r : Resolution} (h : resolve limit classes = .ok r)
    (i : Fin classes.length) :
    ∃ found, edgesWithin classes limit (classes.get i) = some found ∧
      r.classes[i.val]? = some (inherit classes (classes.get i) found) := by
  obtain ⟨above, habove, rfl⟩ := resolve_eq_ok_iff.mp h
  exact ⟨above i, habove i, by simp⟩

/-! ### Following a chain by name -/

section Chains

variable {μ : Type} {c : Class}

/-- **A base is preferred** to all classes with its name. -/
theorem IsBase.preferred {i : Fin classes.length} (h : IsBase classes c i) (k : Fin classes.length)
    (hk : (classes.get k).isNamed (classes.get i).fullName = true) : Preferred classes i k := by
  obtain ⟨base, -, hlookup⟩ := h
  obtain ⟨-, hnamed, hbest⟩ := lookup?_eq_some_iff.mp hlookup
  rw [isNamed_iff] at hk hnamed
  exact hbest k (isNamed_iff.mpr (hk.trans hnamed))

/-- The last class on a run is a base. -/
theorem IsRun.exists_isBase_last {before : List (Fin classes.length)} {i : Fin classes.length}
    (h : IsRun classes c (before ++ [i])) : ∃ d, IsBase classes d i := by
  induction before generalizing c with
  | nil => exact ⟨c, h.1⟩
  | cons j before ih => exact ih h.2

/-- **The chain of an entry is followed by name**: the name of its last link finds a class, which
has the member as its own if the name is defined first. -/
def FollowedByName (classes : List Class) (atlas : Atlas) (entries : Class → List (Entry μ))
    (entry : Entry μ) : Prop :=
  ∃ chain last i, entry.chain = some chain ∧ chain.getLast? = some last ∧
    atlas.findClass? last.fullName = some i ∧
    (DefinedFirst classes last.fullName → ⟨entry.member, none⟩ ∈ entries (atlas.classes.get i))

/-- What is inherited is followed by name. -/
theorem followedByName_of_mem_inherited {r : Resolution} (h : resolve limit classes = .ok r)
    (fileName : String) {entries : Class → List (Entry μ)} {members : Declared → List μ}
    (hmembers : ∀ d : Class, members d.declared = ownMembers (entries d))
    (hkept : ∀ d found, entries d ⊆ entries (inherit classes d found))
    {found : List (Edge classes)} (hfound : edgesWithin classes limit c = some found)
    {entry : Entry μ} (hentry : entry ∈ inherited classes members found) :
    FollowedByName classes (r.atlas fileName) entries entry := by
  obtain ⟨before, i, hedge, hchain, hmem⟩ := exists_route_of_mem_inherited hentry
  obtain ⟨d, hbase⟩ := (isRun_of_reached_mem hfound hedge).1.exists_isBase_last
  have hnamed : (classes.get i).isNamed (classes.get i).fullName = true := Name.same_iff.mpr rfl
  obtain ⟨k, hfirst, -, -⟩ := exists_firstNamed? hnamed
  have hfind := findClass?_of_resolve h fileName (classes.get i).fullName
  rw [hfirst, Option.map_some, Option.map_eq_some_iff] at hfind
  obtain ⟨k', hk', hval⟩ := hfind
  refine ⟨_, _, k', hchain, getLast?_chainOf_concat before i, hk', fun hdefined => ?_⟩
  -- the class found is the one at the end of the run, with what it has inherited itself
  obtain rfl : k = i := Option.some.inj (hfirst.symm.trans
    ((firstNamed?_eq_some_iff_of_preferred hnamed hbase.preferred).mpr hdefined))
  obtain ⟨found', -, hd⟩ := getElem?_of_resolve h k
  have hget : (r.atlas fileName).classes.get k' = inherit classes (classes.get k) found' := by
    rw [← hval] at hd
    exact (List.getElem?_eq_some_iff.mp hd).2
  rw [hget]
  rw [hmembers] at hmem
  exact hkept _ _ (mem_ownMembers.mp hmem)

end Chains

/-! ### The two searches -/

/-- **The two searches by name** agree on whether there is a class, and find the same one exactly
for the names that are defined first. Hence the chain of what is inherited can be followed by name:
a class is found under the name of the last link, and if the name is defined first it is the one
whose own member was inherited. -/
theorem searches_agree_where_defined_first {r : Resolution} (h : resolve limit classes = .ok r)
    (fileName : String) :
    (∀ qualified, ∀ c ∈ classes, c.isNamed qualified = false →
      ((r.atlas fileName).findClass? qualified = none ↔
        lookup? classes qualified c.fullName = none) ∧
      (((r.atlas fileName).findClass? qualified).map Fin.val =
          (lookup? classes qualified c.fullName).map Fin.val ↔
        DefinedFirst classes qualified)) ∧
    ∀ (i : Fin classes.length) (c : Class), r.classes[i.val]? = some c →
      (∀ entry ∈ c.fields, entry ∈ (classes.get i).fields ∨
        FollowedByName classes (r.atlas fileName) Class.fields entry) ∧
      ∀ entry ∈ c.methods, entry ∈ (classes.get i).methods ∨
        FollowedByName classes (r.atlas fileName) Class.methods entry := by
  constructor
  · intro qualified c _ hc
    have hname : ¬Name.same qualified c.fullName = true := by
      rw [Name.same_iff, eq_comm, ← isNamed_iff, hc]
      exact Bool.false_ne_true
    have hfind := findClass?_of_resolve h fileName qualified
    rw [← firstNamed?_eq_none_iff hname, ← firstNamed?_eq_lookup?_iff hname, hfind]
    refine ⟨?_, (Option.map_injective Fin.val_injective).eq_iff⟩
    rw [← Option.map_eq_none_iff (f := Fin.val), hfind, Option.map_eq_none_iff]
  · intro i c hc
    obtain ⟨found, hfound, hclass⟩ := getElem?_of_resolve h i
    obtain rfl : inherit classes (classes.get i) found = c :=
      Option.some.inj (hclass.symm.trans hc)
    refine ⟨fun entry hentry => (List.mem_append.mp hentry).imp_right fun hcopy => ?_,
      fun entry hentry => (List.mem_append.mp hentry).imp_right fun hcopy => ?_⟩
    · exact followedByName_of_mem_inherited h fileName (fun _ => rfl)
        (fun d found => List.subset_append_left ..) hfound hcopy
    · exact followedByName_of_mem_inherited h fileName (fun _ => rfl)
        (fun d found => List.subset_append_left ..) hfound hcopy

/-- A base with a field, a mere declaration of it, and a class that inherits the field. -/
def definedThenDeclared : List Class :=
  [{ name := "A", fullName := "A", fields := [⟨⟨"x", some "int"⟩, none⟩],
     info := { isComplete := true } },
   { name := "A", fullName := "A" },
   { name := "B", fullName := "B",
     info := { bases := [{ access := "public", type := { spelling := some "A" } }],
               isComplete := true } }]

/-- The definition stands before the declaration, so the searches agree. -/
theorem searches_agree_where_defined_first_definedThenDeclared :
    ∃ r, resolve 64 definedThenDeclared = .ok r ∧
      ((r.atlas "b.cpp").findClass? "A").map Fin.val =
        (lookup? definedThenDeclared "A" "B").map Fin.val := by
  have hok : (resolve 64 definedThenDeclared).isOk = true := by decide +kernel
  rcases hr : resolve 64 definedThenDeclared with e | r
  · rw [hr] at hok
    cases hok
  · refine ⟨r, rfl, ?_⟩
    have hagree := (searches_agree_where_defined_first hr "b.cpp").1 "A"
      (definedThenDeclared.get ⟨2, by decide⟩) (List.get_mem _ _) (by decide +kernel)
    exact hagree.2.mpr (by decide +kernel)

/-- A mere declaration before the definition of a base with a field, and a class that inherits the
field. -/
def declaredThenDefined : List Class :=
  [{ name := "A", fullName := "A" },
   { name := "A", fullName := "A", fields := [⟨⟨"x", some "int"⟩, none⟩],
     info := { isComplete := true } },
   { name := "B", fullName := "B",
     info := { bases := [{ access := "public", type := { spelling := some "A" } }],
               isComplete := true } }]

/-- **The searches differ** where a mere declaration stands first: the lookup finds the definition,
and the search in the atlas finds the declaration. -/
theorem searches_differ_where_declared_first :
    ¬∀ (limit : Nat) (classes : List Class) (r : Resolution) (fileName qualified : String),
      resolve limit classes = .ok r → ∀ c ∈ classes, c.isNamed qualified = false →
        ((r.atlas fileName).findClass? qualified).map Fin.val =
          (lookup? classes qualified c.fullName).map Fin.val := by
  intro hall
  have hok : (resolve 64 declaredThenDefined).isOk = true := by decide +kernel
  rcases hr : resolve 64 declaredThenDefined with e | r
  · rw [hr] at hok
    cases hok
  · have hsame := hall 64 declaredThenDefined r "b.cpp" "A" hr
      (declaredThenDefined.get ⟨2, by decide⟩) (List.get_mem _ _) (by decide +kernel)
    rw [findClass?_of_resolve hr] at hsame
    exact absurd hsame (by decide +kernel)

end Inheritance

end ClassAtlas
