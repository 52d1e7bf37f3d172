import ClassAtlas.Atlas
import ClassAtlas.Proofs.Inheritance.NamedChains
/-!
# Separators in front of names

A compiler writes `::A` where a class is named from the outermost namespace and `A` elsewhere, so
the same class is spelt in two ways within one dump. A class is made with a bare full name, a
declared base is looked up by its bare name, and a missing base is reported bare. Nothing else of a
name is looked at, hence two lists of classes that are the same but for separators in front of full
names and bases (`ClassAtlas.Class.Respelt`) are resolved alike
(`ClassAtlas.Inheritance.separators_never_matter`).

The two outcomes are not equal: a class keeps its bases as they were declared, and so do the links
of a chain. They agree in what is read off a class, its names and its members with the names along
their chains (`ClassAtlas.Class.SameByNames`).
-/

namespace ClassAtlas

/-! ### Spellings -/

namespace Name

/-- The name with so many separators put before it. -/
def withSeparators : Nat → String → String
  | 0, name => name
  | n + 1, name => "::" ++ withSeparators n name

/-- **Two spellings of a name**: separators are put before the one, or taken away from its front, to
make the other. -/
def Respelt (a b : String) : Prop :=
  ∃ n, b = withSeparators n a ∨ a = withSeparators n b

/-- A separator in front is no part of the bare name. -/
theorem bare_withSeparators (n : Nat) (name : String) :
    bare (withSeparators n name) = bare name := by
  induction n with
  | zero => rfl
  | succ n ih =>
    have hchars : ("::" ++ withSeparators n name).toList =
        ':' :: ':' :: (withSeparators n name).toList := by
      rw [String.toList_append]
      rfl
    rw [withSeparators, bare, hchars, bareChars, ← ih, bare]

theorem Respelt.bare_eq {a b : String} (h : Respelt a b) : bare a = bare b := by
  obtain ⟨n, rfl | rfl⟩ := h
  · exact (bare_withSeparators n a).symm
  · exact bare_withSeparators n b

end Name

/-- Two spellings of a declared base. -/
structure Ast.BaseClause.Respelt (base base' : Ast.BaseClause) : Prop where
  /-- The access specifier is the same. -/
  access : base'.access = base.access
  /-- Both are virtual or none is. -/
  isVirtual : base'.isVirtual = base.isVirtual
  /-- The base classes are two spellings of a name. -/
  declared : Name.Respelt base.declared base'.declared

/-- **Two spellings of a class**: the classes are made new from full names that differ in
separators, with bases that do, and else are the same. They may have been given any members. -/
inductive Class.Respelt : Class → Class → Prop
  | intro (name : String) {fullName fullName' : String} {info : ClassInfo}
      {bases : List Ast.BaseClause} (methods : List (Entry Method)) (fields : List (Entry Field))
      (hname : Name.Respelt fullName fullName')
      (hbases : List.Forall₂ Ast.BaseClause.Respelt info.bases bases) :
      Class.Respelt { Class.new name fullName info with methods, fields }
        { Class.new name fullName' { info with bases } with methods, fields }

/-- **Two classes are the same by their names**: they have the same names, and the same members in
the same order with the same names along their chains. -/
structure Class.SameByNames (c d : Class) : Prop where
  /-- The name is the same. -/
  name : d.name = c.name
  /-- The full name is the same. -/
  fullName : d.fullName = c.fullName
  /-- The methods are the same. -/
  methods : d.methods.map Entry.byNames = c.methods.map Entry.byNames
  /-- The fields are the same. -/
  fields : d.fields.map Entry.byNames = c.fields.map Entry.byNames

namespace Inheritance

/-! ### Resolving -/

/-- Separators make no difference to the edges. -/
theorem edgeKey_of_respelt {c d : Class} (h : c.Respelt d) : edgeKey d = edgeKey c := by
  cases h with
  | intro name methods fields hname hbases =>
    refine edgeKey_eq_iff.mpr ⟨hname.bare_eq.symm, ?_, rfl⟩
    exact (map_eq_map_of_forall₂ (fun _ _ hbase => hbase.declared.bare_eq) hbases).symm

theorem name_of_respelt {c d : Class} (h : c.Respelt d) : d.name = c.name := by
  cases h
  rfl

theorem methods_of_respelt {c d : Class} (h : c.Respelt d) : d.methods = c.methods := by
  cases h
  rfl

theorem fields_of_respelt {c d : Class} (h : c.Respelt d) : d.fields = c.fields := by
  cases h
  rfl

section Outcome

variable {xs ys : List Class} {f : Fin xs.length → Fin ys.length}
  (hrespelt : ∀ i, (xs.get i).Respelt (ys.get (f i)))

include hrespelt

/-- Classes that are spelt in two ways inherit the same by names. -/
theorem sameByNames_inherit {c d : Class} (h : c.Respelt d) (found : List (Edge xs)) :
    (inherit xs c found).SameByNames (inherit ys d (found.map (Edge.map f))) := by
  have hname : ∀ i, (ys.get (f i)).fullName = (xs.get i).fullName := fun i =>
    (edgeKey_eq_iff.mp (edgeKey_of_respelt (hrespelt i))).1
  have hmethods : ∀ i, (ys.get (f i)).declared.methods = (xs.get i).declared.methods := fun i =>
    congrArg ownMembers (methods_of_respelt (hrespelt i))
  have hfields : ∀ i, (ys.get (f i)).declared.fields = (xs.get i).declared.fields := fun i =>
    congrArg ownMembers (fields_of_respelt (hrespelt i))
  have hsame : d.name = c.name := name_of_respelt h
  have hfull : d.fullName = c.fullName := (edgeKey_eq_iff.mp (edgeKey_of_respelt h)).1
  refine ⟨hsame, hfull, ?_, ?_⟩
  · have hinherited := inherited_byNames_congr hname hmethods found
    simp only [inherit, List.map_append, methods_of_respelt h]
    exact congrArg (c.methods.map Entry.byNames ++ ·) hinherited
  · have hinherited := inherited_byNames_congr hname hfields found
    simp only [inherit, List.map_append, fields_of_respelt h]
    exact congrArg (c.fields.map Entry.byNames ++ ·) hinherited

end Outcome

/-- **Two spellings of a name find the same class** among classes that are the same by their
names. -/
theorem findClass?_of_sameByNames {a b : Atlas}
    (h : List.Forall₂ Class.SameByNames a.classes b.classes) {name name' : String}
    (hname : Name.Respelt name name') :
    (b.findClass? name').map Fin.val = (a.findClass? name).map Fin.val := by
  have hkeys : a.classes.map (fun c => Name.bare c.fullName) =
      b.classes.map fun c => Name.bare c.fullName :=
    map_eq_map_of_forall₂ (fun _ _ hcd => congrArg Name.bare hcd.fullName.symm) h
  have hfind := findFinIdx?_congr hkeys h.length_eq fun key => key == Name.bare name
  have hmap : (b.classes.findFinIdx? fun c => Name.bare c.fullName == Name.bare name).map Fin.val =
      (a.classes.findFinIdx? fun c => Name.bare c.fullName == Name.bare name).map Fin.val := by
    rw [hfind, Option.map_map]
    rfl
  simpa only [Atlas.findClass?, Class.isNamed, Name.same, hname.bare_eq] using hmap

/-- **Separators in front of names never matter.** When the full names and the declared bases of the
classes of a list are spelt with other numbers of separators in front, resolving fails with the same
failure or comes to the same: the same classes by their names, with the same members in the same
order and the same names along their chains, and the same missing bases in the same order. And any
two spellings of a name find the class at the same place in both. -/
theorem separators_never_matter {xs ys : List Class} (h : List.Forall₂ Class.Respelt xs ys)
    (limit : Nat) :
    (∃ e, resolve limit xs = .error e ∧ resolve limit ys = .error e) ∨
      ∃ r r', resolve limit xs = .ok r ∧ resolve limit ys = .ok r' ∧
        List.Forall₂ Class.SameByNames r.classes r'.classes ∧ r'.unresolved = r.unresolved ∧
        ∀ fileName name name', Name.Respelt name name' →
          (Atlas.findClass? ⟨fileName, r'.classes, r'.unresolved⟩ name').map Fin.val =
            (Atlas.findClass? ⟨fileName, r.classes, r.unresolved⟩ name).map Fin.val := by
  have hkeys : xs.map edgeKey = ys.map edgeKey :=
    map_eq_map_of_forall₂ (f := edgeKey) (fun _ _ hcd => (edgeKey_of_respelt hcd).symm) h
  have hrespelt := get_of_forall₂ h (length_eq_of_edgeKeys hkeys)
  obtain hfailed | ⟨r, r', hr, hr', hsame, hunresolved⟩ := resolve_of_keys hkeys limit
      Class.SameByNames fun i found => sameByNames_inherit hrespelt (hrespelt i) found
  · exact Or.inl hfailed
  · exact Or.inr ⟨r, r', hr, hr', hsame, hunresolved,
      fun fileName name name' hname => findClass?_of_sameByNames hsame hname⟩

/-- A class with a field, and one that has it as a base and misses two others, by the given
spellings. -/
def spelling (fullName fullName' : String) (bases : List String) : List Class :=
  [{ Class.new "A" fullName {} with
      methods := [], fields := [⟨⟨"a", some "int"⟩, none⟩] },
   { Class.new "B" fullName' { bases := bases.map fun base => { type := ⟨some base⟩ } } with
      methods := [], fields := [] }]

/-- Names of single and of only separators among the spellings: the field arrives, and the bases are
missing under the same names. -/
theorem separators_never_matter_colons :
    let xs := spelling "A" "::::B" ["::A", ":::X", ""]
    let ys := spelling "::A" "B" ["::::A", ":X", "::"]
    List.Forall₂ Class.Respelt xs ys ∧
      ∃ r r', resolve 1 xs = .ok r ∧ resolve 1 ys = .ok r' ∧
        r.unresolved = [⟨":X", "B"⟩, ⟨"", "B"⟩] ∧
        r.classes.map (fun c => c.fields.map Entry.chainNames) = [[[]], [["A"]]] ∧
        List.Forall₂ Class.SameByNames r.classes r'.classes ∧ r'.unresolved = r.unresolved := by
  intro xs ys
  have hspelt : List.Forall₂ Class.Respelt xs ys := by
    refine .cons (.intro "A" _ _ ⟨1, .inl rfl⟩ .nil) (.cons (.intro "B" _ _ ⟨2, .inr rfl⟩ ?_) .nil)
    exact .cons ⟨rfl, rfl, 1, .inl rfl⟩ (.cons ⟨rfl, rfl, 1, .inr rfl⟩
      (.cons ⟨rfl, rfl, 1, .inl rfl⟩ .nil))
  refine ⟨hspelt, ?_⟩
  obtain ⟨e, he, -⟩ | ⟨r, r', hr, hr', hsame, hunresolved, -⟩ := separators_never_matter hspelt 1
  · cases he
  · cases hr
    exact ⟨_, r', rfl, hr', rfl, rfl, hsame, hunresolved⟩

end Inheritance

end ClassAtlas
