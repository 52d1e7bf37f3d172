import ClassAtlas.Proofs.Inheritance.Limit
/-!
# Flattening

Every class inherits along its own edges, from classes as they were given and not as they come
out. All the same the outcome can be computed from itself: a class has its own members and then,
base by base, all that the class that the base stands for has in the outcome, its own members and
its copies alike, each with that class put in front of its chain
(`ClassAtlas.Inheritance.resolve_flattens`). So nothing is lost or merged where ancestors are
shared, and the copies stand in the order in which a reader of the declarations meets them.

What makes this work is that the edges above a class unfold those above its bases
(`ClassAtlas.Inheritance.edgesWithin_fixed`), and that copying along a longer route is copying
along the shorter one with one more ancestor in front
(`ClassAtlas.Inheritance.copies_cons`).
-/

namespace ClassAtlas

variable {μ : Type}

/-- **The entry as it is inherited on** by a class that has the given one as a base. An own member
has come through that class only, and a copy through it and then along the chain that it had. -/
def Entry.through (ancestor : Declared) (entry : Entry μ) : Entry μ where
  member := entry.member
  chain := some (ancestor :: entry.chain.getD [])

/-- The class holds own members only. -/
def Class.OwnOnly (c : Class) : Prop :=
  (∀ method ∈ c.methods, method.isOwn) ∧ ∀ field ∈ c.fields, field.isOwn

instance (c : Class) : Decidable c.OwnOnly :=
  inferInstanceAs
    (Decidable ((∀ method ∈ c.methods, method.isOwn) ∧ ∀ field ∈ c.fields, field.isOwn))

namespace Inheritance

variable {classes : List Class}

/-- What a base adds to a class, where `entries` has the members of the class at each position:
nothing if the base is missing, and else all members of the class that it stands for, inherited
on through that class. -/
def contribution (classes : List Class) (entries : Fin classes.length → List (Entry μ))
    (fromName : String) (base : Ast.BaseClause) : List (Entry μ) :=
  match lookup? classes base.declared fromName with
  | none => []
  | some i => (entries i).map (Entry.through (classes.get i).declared)

/-! ### Copies along routes -/

/-- Copies along a route with one more ancestor in front are inherited on through it. -/
theorem copies_cons (members : Declared → List μ) (ancestor : Declared) {chain : List Declared}
    (hne : chain ≠ []) :
    copies members (ancestor :: chain) =
      (copies members chain).map (Entry.through ancestor) := by
  -- only the last ancestor is copied from, and it stays the last
  obtain ⟨before, last, rfl⟩ := (List.eq_nil_or_concat' chain).resolve_left hne
  rw [copies, copies, ← List.cons_append, List.getLast?_concat, List.getLast?_concat]
  simp [Entry.through]

/-- Own members are copied through their class as they are inherited on. -/
theorem copies_singleton (members : Declared → List μ) (ancestor : Declared)
    {entries : List (Entry μ)} (hown : ∀ entry ∈ entries, entry.isOwn)
    (hmembers : members ancestor = ownMembers entries) :
    copies members [ancestor] = entries.map (Entry.through ancestor) := by
  have hfilter : entries.filter Entry.isOwn = entries := List.filter_eq_self.mpr hown
  rw [copies, List.getLast?_singleton]
  dsimp only
  rw [hmembers, ownMembers, hfilter, List.map_map]
  refine List.map_congr_left fun entry hentry => ?_
  have hnone : entry.chain = none := Option.isNone_iff_eq_none.mp (hown entry hentry)
  simp [Entry.through, hnone]

theorem chains_map_via (i : Fin classes.length) (found : List (Edge classes)) :
    chains classes (found.map (Edge.via i)) =
      (chains classes found).map ((classes.get i).declared :: ·) := by
  rw [chains, chains, List.filterMap_map, List.map_filterMap]
  refine List.filterMap_congr fun edge _ => ?_
  cases edge <;> rfl

theorem mem_chains_iff {found : List (Edge classes)} {chain : List Declared} :
    chain ∈ chains classes found ↔
      ∃ route, .reached route ∈ found ∧ chainOf classes route = chain := by
  rw [chains, List.mem_filterMap]
  constructor
  · rintro ⟨route | base, hedge, hchain⟩
    · exact ⟨route, hedge, Option.some.inj hchain⟩
    · cases hchain
  · rintro ⟨route, hedge, rfl⟩
    exact ⟨_, hedge, rfl⟩

/-- The chain along a route ends in the class at its end. -/
theorem getLast?_chainOf_concat (route : List (Fin classes.length)) (i : Fin classes.length) :
    (chainOf classes (route ++ [i])).getLast? = some (classes.get i).declared := by
  rw [chainOf, List.getLast?_map, List.getLast?_concat]
  rfl

/-- The chains of edges with routes that are not empty are not empty. -/
theorem ne_nil_of_mem_chains {found : List (Edge classes)}
    (hne : ∀ route, .reached route ∈ found → route ≠ []) {chain : List Declared}
    (h : chain ∈ chains classes found) : chain ≠ [] := by
  obtain ⟨route, hedge, rfl⟩ := mem_chains_iff.mp h
  exact fun hnil => hne route hedge (List.map_eq_nil_iff.mp hnil)

/-! ### What a class inherits -/

/-- The copies that a class inherits along its edges. -/
def inherited (classes : List Class) (members : Declared → List μ) (found : List (Edge classes)) :
    List (Entry μ) :=
  (chains classes found).flatMap (copies members)

/-- **What is inherited** are members of the class at the end of a route, with the chain along the
route. -/
theorem exists_route_of_mem_inherited {members : Declared → List μ} {found : List (Edge classes)}
    {entry : Entry μ} (h : entry ∈ inherited classes members found) :
    ∃ before i, .reached (before ++ [i]) ∈ found ∧
      entry.chain = some (chainOf classes (before ++ [i])) ∧
      entry.member ∈ members (classes.get i).declared := by
  obtain ⟨chain, hchain, hcopy⟩ := List.mem_flatMap.mp h
  obtain ⟨route, hedge, rfl⟩ := mem_chains_iff.mp hchain
  rcases List.eq_nil_or_concat' route with rfl | ⟨before, i, rfl⟩
  · cases hcopy
  · rw [copies, getLast?_chainOf_concat] at hcopy
    obtain ⟨m, hm, rfl⟩ := List.mem_map.mp hcopy
    exact ⟨before, i, hedge, rfl, hm⟩

section Entries

variable (entries : Class → List (Entry μ)) (members : Declared → List μ)
  (hown : ∀ i : Fin classes.length, ∀ entry ∈ entries (classes.get i), entry.isOwn)
  (hmembers : ∀ c : Class, members c.declared = ownMembers (entries c))

include hown hmembers

/-- Along the edges of one base a class inherits all that the class there has, own members and
copies. -/
theorem inherited_edgesFrom {above : Fin classes.length → List (Edge classes)} {fromName : String}
    {base : Ast.BaseClause}
    (hne : ∀ i, lookup? classes base.declared fromName = some i →
      ∀ route, .reached route ∈ above i → route ≠ []) :
    inherited classes members (edgesFrom classes above fromName base) =
      contribution classes (fun i => entries (classes.get i) ++ inherited classes members (above i))
        fromName base := by
  rw [contribution]
  cases hi : lookup? classes base.declared fromName with
  | none =>
    rw [edgesFrom_of_none hi]
    rfl
  | some i =>
    have hfirst : copies members [(classes.get i).declared] =
        (entries (classes.get i)).map (Entry.through (classes.get i).declared) :=
      copies_singleton members _ (hown i) (hmembers (classes.get i))
    have hrest : inherited classes members ((above i).map (Edge.via i)) =
        (inherited classes members (above i)).map (Entry.through (classes.get i).declared) := by
      rw [inherited, chains_map_via, List.flatMap_map, inherited, List.map_flatMap]
      exact List.flatMap_congr fun chain hchain =>
        copies_cons members _ (ne_nil_of_mem_chains (hne i hi) hchain)
    rw [edgesFrom_of_some hi]
    dsimp only
    rw [List.map_append, ← hfirst, ← hrest]
    rfl

/-- **Along an unfolding a class inherits what its bases have**, base by base. -/
theorem inherited_edgesOver {above : Fin classes.length → List (Edge classes)} {c : Class}
    (hne : ∀ i, IsBase classes c i → ∀ route, .reached route ∈ above i → route ≠ []) :
    inherited classes members (edgesOver classes above c) =
      c.info.bases.flatMap (contribution classes
        (fun i => entries (classes.get i) ++ inherited classes members (above i)) c.fullName) := by
  have hsplit : inherited classes members (edgesOver classes above c) =
      c.info.bases.flatMap fun base =>
        inherited classes members (edgesFrom classes above c.fullName base) := by
    rw [inherited, chains, edgesOver, List.filterMap_flatMap, List.flatMap_assoc]
    rfl
  rw [hsplit]
  refine List.flatMap_congr fun base hbase => ?_
  exact inherited_edgesFrom entries members hown hmembers fun i hi => hne i ⟨base, hbase, hi⟩

/-- **What the class at a position inherits is computed from what the others have**, when the
edges above every position are within a limit. -/
theorem inherited_above {limit : Nat} {above : Fin classes.length → List (Edge classes)}
    (habove : ∀ i, edgesWithin classes limit (classes.get i) = some (above i))
    (i : Fin classes.length) :
    inherited classes members (above i) =
      (classes.get i).info.bases.flatMap (contribution classes
        (fun j => entries (classes.get j) ++ inherited classes members (above j))
        (classes.get i).fullName) := by
  -- the lists above the positions are unfoldings of one another
  have hunfold : above i = edgesOver classes above (classes.get i) := by
    rw [(edgesWithin_fixed (habove i)).2]
    exact edgesOver_congr fun j _ => by rw [edgesAbove, habove j, Option.getD_some]
  have hinherited := inherited_edgesOver (c := classes.get i) entries members hown hmembers
    fun j _ route hmem => (isRun_of_reached_mem (habove j) hmem).2
  rwa [← hunfold] at hinherited

end Entries

/-! ### The outcome of resolving -/

/-- **The outcome of resolving, computed from itself.** In a list of classes with own members only
that can be resolved, each class keeps its place, its names and what else is known of it. It has
its own members as they were, and then, for each of its bases in order, all members that the class
which the base stands for has in the outcome, inherited on through that class. -/
theorem resolve_flattens {classes : List Class} {limit : Nat} {r : Resolution}
    (hown : ∀ c ∈ classes, c.OwnOnly) (h : resolve limit classes = .ok r) :
    ∃ hlen : classes.length = r.classes.length,
      let out := fun i : Fin classes.length => r.classes.get (i.cast hlen)
      ∀ i : Fin classes.length,
        (out i).name = (classes.get i).name ∧ (out i).fullName = (classes.get i).fullName ∧
        (out i).info = (classes.get i).info ∧
        (out i).fields = (classes.get i).fields ++ (classes.get i).info.bases.flatMap
          (contribution classes (fun j => (out j).fields) (classes.get i).fullName) ∧
        (out i).methods = (classes.get i).methods ++ (classes.get i).info.bases.flatMap
          (contribution classes (fun j => (out j).methods) (classes.get i).fullName) := by
  obtain ⟨above, habove, rfl⟩ := resolve_eq_ok_iff.mp h
  have hout : ∀ i : Fin classes.length,
      (List.ofFn fun i => inherit classes (classes.get i) (above i)).get
        (i.cast (List.length_ofFn).symm) = inherit classes (classes.get i) (above i) := by
    intro i
    rw [List.get_ofFn]
    rfl
  have hown' : ∀ i : Fin classes.length, (classes.get i).OwnOnly := fun i =>
    hown (classes.get i) (List.getElem_mem _)
  refine ⟨(List.length_ofFn).symm, ?_⟩
  simp only [hout]
  intro i
  refine ⟨rfl, rfl, rfl, ?_, ?_⟩
  · exact congrArg ((classes.get i).fields ++ ·)
      (inherited_above Class.fields Declared.fields (fun j => (hown' j).2) (fun _ => rfl) habove i)
  · exact congrArg ((classes.get i).methods ++ ·)
      (inherited_above Class.methods Declared.methods (fun j => (hown' j).1) (fun _ => rfl)
        habove i)

/-- Four classes of which the last has two bases that share one, and a missing base between them.
The shared base has a field. -/
def diamond : List Class :=
  [(sample "A" []).addField ⟨⟨"a", some "int"⟩, none⟩, sample "B" ["A"], sample "C" ["::A"],
    (sample "D" ["B", "Ghost", "C"]).addField ⟨⟨"d", none⟩, none⟩]

/-- The last class of the diamond has its own field and, through both of its bases, the field of
the shared one. -/
theorem resolve_flattens_diamond :
    (∀ c ∈ diamond, c.OwnOnly) ∧ ∃ r, resolve 2 diamond = .ok r ∧
      ∃ hlen : diamond.length = r.classes.length,
        let out := fun i : Fin diamond.length => r.classes.get (i.cast hlen)
        let last : Fin diamond.length := ⟨3, by decide⟩
        (out last).fields = (diamond.get last).fields ++ (diamond.get last).info.bases.flatMap
          (contribution diamond (fun j => (out j).fields) "D") ∧
        (out last).fields.map Entry.chainNames = [[], ["B", "A"], ["C", "A"]] := by
  have hown : ∀ c ∈ diamond, c.OwnOnly := by decide
  refine ⟨hown, _, rfl, ?_⟩
  obtain ⟨hlen, hflat⟩ := resolve_flattens hown (show resolve 2 diamond = .ok _ from rfl)
  exact ⟨hlen, (hflat _).2.2.2.1, rfl⟩

end Inheritance

end ClassAtlas
