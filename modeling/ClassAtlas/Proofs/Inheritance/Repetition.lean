import ClassAtlas.Proofs.Inheritance.NamedChains
/-!
# Resolving again

Inheritance can be resolved in classes that have inherited already. Then every class inherits once
more what it has inherited the first time, and nothing else: after any number of times it has its
own members and as many copies of one block
(`ClassAtlas.Inheritance.resolving_again_adds_the_same`). The growth does not compound, though after
the first time every ancestor holds copies itself.

The reason is that an entry with a chain is never copied on. What is inherited are own members
(`ClassAtlas.Inheritance.copiesOwn_inherited`), so adding copies to a class does not change it as it
is declared (`ClassAtlas.Class.declared_addTimes`), and a class as it is declared is all that
resolving sees of an ancestor (`ClassAtlas.Inheritance.resolve_addedTimes`).
-/

namespace ClassAtlas

variable {μ : Type}

/-! ### Copies of own members -/

theorem mem_ownMembers {m : μ} {entries : List (Entry μ)} :
    m ∈ ownMembers entries ↔ (⟨m, none⟩ : Entry μ) ∈ entries := by
  constructor
  · intro hm
    obtain ⟨⟨m', chain⟩, hentry, rfl⟩ := List.mem_map.mp hm
    obtain ⟨hmem, hown⟩ := List.mem_filter.mp hentry
    obtain rfl : chain = none := Option.isNone_iff_eq_none.mp hown
    exact hmem
  · intro hmem
    exact List.mem_map.mpr ⟨⟨m, none⟩, List.mem_filter.mpr ⟨hmem, rfl⟩, rfl⟩

/-- **All entries are copies of own members** of classes of a list. The class that owns the member
is the last of the chain, which is not empty. -/
def CopiesOwn (classes : List Class) (entries : Class → List (Entry μ)) (block : List (Entry μ)) :
    Prop :=
  ∀ copy ∈ block, ∃ chain i, copy.chain = some chain ∧
    chain.getLast? = some (classes.get i).declared ∧
    ⟨copy.member, none⟩ ∈ entries (classes.get i)

theorem CopiesOwn.isOwn_eq_false {classes : List Class} {entries : Class → List (Entry μ)}
    {block : List (Entry μ)} (h : CopiesOwn classes entries block) :
    ∀ copy ∈ block, copy.isOwn = false := by
  intro copy hcopy
  obtain ⟨chain, -, hchain, -⟩ := h copy hcopy
  rw [Entry.isOwn, hchain]
  rfl

/-- Copies behind a list are no own members of it. -/
theorem ownMembers_append_of_not_own {entries block : List (Entry μ)}
    (h : ∀ copy ∈ block, copy.isOwn = false) :
    ownMembers (entries ++ block) = ownMembers entries := by
  have hnone : block.filter Entry.isOwn = [] := by
    refine List.filter_eq_nil_iff.mpr fun copy hcopy => ?_
    rw [h copy hcopy]
    exact Bool.false_ne_true
  rw [ownMembers, ownMembers, List.filter_append, hnone, List.append_nil]

/-! ### Classes with blocks of copies -/

/-- **The class with blocks put behind its members**, each so many times. -/
def Class.addTimes (k : Nat) (methods : List (Entry Method)) (fields : List (Entry Field))
    (c : Class) : Class :=
  { c with
    methods := c.methods ++ (List.replicate k methods).flatten
    fields := c.fields ++ (List.replicate k fields).flatten }

section Blocks

variable {methods : List (Entry Method)} {fields : List (Entry Field)}

theorem Class.addTimes_zero (c : Class) : c.addTimes 0 methods fields = c := by
  simp [Class.addTimes]

/-- One time more puts one more block behind all. -/
theorem Class.addTimes_succ (k : Nat) (c : Class) :
    c.addTimes (k + 1) methods fields =
      { c.addTimes k methods fields with
        methods := (c.addTimes k methods fields).methods ++ methods
        fields := (c.addTimes k methods fields).fields ++ fields } := by
  simp [Class.addTimes, List.replicate_succ']

/-- **Copies do not change a class as it is declared.** -/
theorem Class.declared_addTimes (hmethods : ∀ copy ∈ methods, copy.isOwn = false)
    (hfields : ∀ copy ∈ fields, copy.isOwn = false) (k : Nat) (c : Class) :
    (c.addTimes k methods fields).declared = c.declared := by
  induction k with
  | zero => rw [Class.addTimes_zero]
  | succ k ih =>
    rw [Class.addTimes_succ, Class.declared]
    dsimp only
    rw [ownMembers_append_of_not_own hmethods, ownMembers_append_of_not_own hfields]
    exact ih

end Blocks

namespace Inheritance

variable {classes : List Class} {limit : Nat}

/-- **Only own members are inherited.** -/
theorem copiesOwn_inherited (entries : Class → List (Entry μ)) {members : Declared → List μ}
    (hmembers : ∀ c : Class, members c.declared = ownMembers (entries c))
    (found : List (Edge classes)) :
    CopiesOwn classes entries (inherited classes members found) := by
  intro copy hcopy
  obtain ⟨before, i, -, hchain, hmem⟩ := exists_route_of_mem_inherited hcopy
  rw [hmembers] at hmem
  exact ⟨_, i, hchain, getLast?_chainOf_concat before i, mem_ownMembers.mp hmem⟩

/-! ### Resolving again -/

/-- **Inheritance resolved so many times**, each time in the classes that came of the time before.
-/
def resolveTimes (limit : Nat) : Nat → List Class → Except Error Resolution
  | 0, classes => .ok { classes, unresolved := [] }
  | k + 1, classes => do
      let before ← resolveTimes limit k classes
      resolve limit before.classes

section Again

variable (above : Fin classes.length → List (Edge classes))

/-- The classes of a list, each with what it inherits along the given edges put behind its members
so many times. -/
def addedTimes (k : Nat) : List Class :=
  List.ofFn fun i => (classes.get i).addTimes k
    (inherited classes Declared.methods (above i)) (inherited classes Declared.fields (above i))

theorem addedTimes_zero : addedTimes above 0 = classes := by
  simp only [addedTimes, Class.addTimes_zero]
  exact List.ofFn_get classes

/-- What is inherited does not change a class of the list as it is declared. -/
theorem declared_addTimes_inherited (k : Nat) (i : Fin classes.length) :
    ((classes.get i).addTimes k (inherited classes Declared.methods (above i))
      (inherited classes Declared.fields (above i))).declared = (classes.get i).declared :=
  Class.declared_addTimes
    (copiesOwn_inherited Class.methods (fun _ => rfl) (above i)).isOwn_eq_false
    (copiesOwn_inherited Class.fields (fun _ => rfl) (above i)).isOwn_eq_false k (classes.get i)

theorem map_declared_addedTimes (k : Nat) :
    (addedTimes above k).map Class.declared = classes.map Class.declared := by
  have hdeclared : Class.declared ∘ (fun i => (classes.get i).addTimes k
      (inherited classes Declared.methods (above i))
      (inherited classes Declared.fields (above i))) = Class.declared ∘ classes.get :=
    funext fun i => declared_addTimes_inherited above k i
  rw [addedTimes, List.map_ofFn, hdeclared, ← List.map_ofFn, List.ofFn_get]

/-- The edges see no copies. -/
theorem map_edgeKey_addedTimes (k : Nat) :
    classes.map edgeKey = (addedTimes above k).map edgeKey := by
  have h := congrArg (List.map fun d : Declared =>
    (d.fullName, d.info.bases.map fun base => Name.bare base.declared, d.info.isComplete))
    (map_declared_addedTimes above k)
  rw [List.map_map, List.map_map] at h
  exact h.symm

variable {above} (habove : ∀ i, edgesWithin classes limit (classes.get i) = some (above i))

include habove

/-- **Resolving once more adds one block more** to each class. -/
theorem resolve_addedTimes (k : Nat) :
    resolve limit (addedTimes above k) = .ok
      { classes := addedTimes above (k + 1)
        unresolved := ((List.ofFn above).flatten.filterMap Edge.missing?).eraseDups } := by
  have hkeys := map_edgeKey_addedTimes above k
  have hlen := length_eq_of_edgeKeys hkeys
  have hget : ∀ i : Fin classes.length, (addedTimes above k).get (i.cast hlen) =
      (classes.get i).addTimes k (inherited classes Declared.methods (above i))
        (inherited classes Declared.fields (above i)) := by
    intro i
    simp only [addedTimes, List.get_ofFn]
    rfl
  have hchains : ∀ found : List (Edge classes),
      chains (addedTimes above k) (found.map (Edge.map (Fin.cast hlen))) =
        chains classes found := by
    intro found
    have hmap : chains (addedTimes above k) (found.map (Edge.map (Fin.cast hlen))) =
        (chains classes found).map (List.map id) :=
      chains_map (fun i => (congrArg Class.declared (hget i)).trans
        (declared_addTimes_inherited above k i)) found
    rwa [List.map_id_fun, List.map_id] at hmap
  have hinherit : ∀ i, inherit (addedTimes above k) ((addedTimes above k).get (i.cast hlen))
      ((above i).map (Edge.map (Fin.cast hlen))) = (classes.get i).addTimes (k + 1)
        (inherited classes Declared.methods (above i))
        (inherited classes Declared.fields (above i)) := by
    intro i
    rw [hget, inherit, hchains, Class.addTimes_succ]
    rfl
  rw [resolve_ok_of_keys hkeys habove]
  simp only [hinherit]
  rfl

/-- **Any number of times adds as many blocks**, and each time the same bases are missing. -/
theorem resolveTimes_succ (k : Nat) :
    resolveTimes limit (k + 1) classes = .ok
      { classes := addedTimes above (k + 1)
        unresolved := ((List.ofFn above).flatten.filterMap Edge.missing?).eraseDups } := by
  induction k with
  | zero =>
    have hfirst := resolve_addedTimes habove 0
    rw [addedTimes_zero] at hfirst
    exact hfirst
  | succ k ih =>
    rw [resolveTimes, ih]
    exact resolve_addedTimes habove (k + 1)

end Again

/-- **Resolving again adds the same once more.** When inheritance can be resolved in a list of
classes, there is for each class a block of methods and one of fields, all copies of own members of
classes of the list, which the class has behind its members after the first time. After any number
of times it has them behind its members as many times, and is declared as it was; and the same bases
are missing every time. -/
theorem resolving_again_adds_the_same {first : Resolution} (h : resolve limit classes = .ok first) :
    ∃ (methods : Fin classes.length → List (Entry Method))
      (fields : Fin classes.length → List (Entry Field)),
      (∀ i, CopiesOwn classes Class.methods (methods i) ∧
        CopiesOwn classes Class.fields (fields i)) ∧
      first.classes = List.ofFn (fun i => (classes.get i).addTimes 1 (methods i) (fields i)) ∧
      ∀ k, let again := List.ofFn fun i => (classes.get i).addTimes (k + 1) (methods i) (fields i)
        resolveTimes limit (k + 1) classes = .ok ⟨again, first.unresolved⟩ ∧
          again.map Class.declared = classes.map Class.declared := by
  obtain ⟨above, habove, rfl⟩ := resolve_eq_ok_iff.mp h
  refine ⟨fun i => inherited classes Declared.methods (above i),
    fun i => inherited classes Declared.fields (above i), fun i => ⟨?_, ?_⟩, ?_, fun k => ⟨?_, ?_⟩⟩
  · exact copiesOwn_inherited Class.methods (fun _ => rfl) (above i)
  · exact copiesOwn_inherited Class.fields (fun _ => rfl) (above i)
  · have hfirst := h.symm.trans (resolveTimes_succ habove 0)
    exact congrArg Resolution.classes (Except.ok.inj hfirst)
  · exact resolveTimes_succ habove k
  · exact map_declared_addedTimes above (k + 1)

/-- After three times the last class of the diamond has its own field once and the field of the
shared base three times through each of its bases, by turns. -/
theorem resolving_again_adds_the_same_diamond :
    ∃ first thrice, resolve 2 diamond = .ok first ∧ resolveTimes 2 3 diamond = .ok thrice ∧
      thrice.unresolved = first.unresolved ∧ first.unresolved = [⟨"Ghost", "D"⟩] ∧
      thrice.classes.map Class.declared = diamond.map Class.declared ∧
      thrice.classes.map (fun c => c.fields.map Entry.chainNames) =
        [[[]], [["A"], ["A"], ["A"]], [["A"], ["A"], ["A"]],
          [[], ["B", "A"], ["C", "A"], ["B", "A"], ["C", "A"], ["B", "A"], ["C", "A"]]] := by
  obtain ⟨methods, fields, -, -, hagain⟩ :=
    resolving_again_adds_the_same (show resolve 2 diamond = .ok _ from rfl)
  obtain ⟨hthrice, hdeclared⟩ := hagain 2
  have hchains : (resolveTimes 2 3 diamond).map (fun r =>
      r.classes.map fun c => c.fields.map Entry.chainNames) = .ok
        [[[]], [["A"], ["A"], ["A"]], [["A"], ["A"], ["A"]],
          [[], ["B", "A"], ["C", "A"], ["B", "A"], ["C", "A"], ["B", "A"], ["C", "A"]]] := rfl
  rw [hthrice] at hchains
  exact ⟨_, _, rfl, hthrice, rfl, rfl, hdeclared, Except.ok.inj hchains⟩

end Inheritance

end ClassAtlas
