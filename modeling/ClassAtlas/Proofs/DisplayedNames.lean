import ClassAtlas.Atlas
import ClassAtlas.Proofs.Inheritance.Correspondence
import ClassAtlas.Proofs.Walk.Collection
/-!
# What a demangler decides

A demangler is asked in the middle of the walk, it may answer anything, and what it answers is
copied to all descendants of a class and into the links of their chains. All the same it decides
nothing but the displayed names of methods
(`ClassAtlas.Atlas.ofDump_same_but_displayed_names`): without them
(`ClassAtlas.Atlas.hideNames`) the atlas of a dump is the same under every demangler, a failure is
the same failure, and the requests are the same requests in the same order.

Two demanglers are not run side by side. What the walk finds is read off the tree, and there an
answer stands only in the name of a method
(`ClassAtlas.Walk.classAt_hideNames`); and resolving comes to the same whether the names are
hidden before or after (`ClassAtlas.Inheritance.resolve_hideNames`), since the edges above a class
see no member.
-/

namespace ClassAtlas

/-! ### Hiding displayed names -/

/-- The method without its displayed name. -/
def Method.hideName (m : Method) : Method :=
  { m with name := "" }

/-- The ancestor without the displayed names of its methods. -/
def Declared.hideNames (ancestor : Declared) : Declared :=
  { ancestor with methods := ancestor.methods.map Method.hideName }

/-- **The class without the displayed names of methods**, its own and those that it has inherited.
All else is kept. -/
def Class.hideNames (c : Class) : Class :=
  { c with
    methods := c.methods.map (Entry.map Method.hideName Declared.hideNames)
    fields := c.fields.map (Entry.map id Declared.hideNames) }

/-- The collection without the displayed names of methods. -/
def Collection.hideNames (collection : Collection) : Collection :=
  { collection with classes := collection.classes.map Class.hideNames }

/-- The outcome of resolving without the displayed names of methods. -/
def Inheritance.Resolution.hideNames (r : Resolution) : Resolution :=
  { r with classes := r.classes.map Class.hideNames }

/-- **The atlas without the displayed names of methods.** -/
def Atlas.hideNames (atlas : Atlas) : Atlas :=
  { atlas with classes := atlas.classes.map Class.hideNames }

theorem ownMembers_map {μ : Type} (member : μ → μ) (link : Declared → Declared)
    (entries : List (Entry μ)) :
    ownMembers (entries.map (Entry.map member link)) = (ownMembers entries).map member := by
  have hown : Entry.isOwn ∘ Entry.map member link = Entry.isOwn := funext fun entry => by
    simp [Entry.isOwn, Entry.map]
  rw [ownMembers, ownMembers, List.filter_map, hown, List.map_map, List.map_map]
  rfl

/-- A class is declared without the names as it is without them. -/
theorem Class.declared_hideNames (c : Class) : c.hideNames.declared = c.declared.hideNames := by
  rw [Class.declared, Class.declared, Declared.hideNames, Class.hideNames]
  simp [ownMembers_map]

/-! ### The walk -/

namespace Walk

variable (d d' : Demangler) (root : Ast.Node)

/-- **Without displayed names the class at an address is the same** under all demanglers. -/
theorem classAt_hideNames (p : List Nat) :
    (classAt d root p).hideNames = (classAt d' root p).hideNames := by
  rw [classAt, classAt, Class.hideNames, Class.hideNames, Class.addMembers, Class.addMembers]
  simp only [List.map_append, List.map_map]
  rfl

/-- **Without displayed names the same is collected** under all demanglers, with the same
requests. -/
theorem collect_hideNames :
    (collect d root).map Collection.hideNames = (collect d' root).map Collection.hideNames := by
  by_cases hunit : root.declKind = .unit
  · by_cases hinner : root.inner = []
    · rw [collect_of_empty hunit hinner, collect_of_empty hunit hinner]
    · rw [collect_eq hunit hinner, collect_eq hunit hinner]
      refine congrArg Except.ok ?_
      rw [Collection.hideNames, Collection.hideNames, List.map_map, List.map_map]
      congr 1
      exact List.map_congr_left fun p _ => classAt_hideNames d d' root p
  · rw [collect_of_not_unit hunit, collect_of_not_unit hunit]

end Walk

/-! ### Inheritance -/

namespace Inheritance

variable {classes : List Class} {limit : Nat}

theorem edgeKeys_hideNames (classes : List Class) :
    classes.map edgeKey = (classes.map Class.hideNames).map edgeKey := by
  rw [List.map_map]
  rfl

/-- What a class inherits along some edges, with the names hidden before or after. -/
theorem inherit_hideNames (hlen : classes.length = (classes.map Class.hideNames).length) (c : Class)
    (found : List (Edge classes)) :
    inherit (classes.map Class.hideNames) c.hideNames (found.map (Edge.map (Fin.cast hlen))) =
      (inherit classes c found).hideNames := by
  have hdeclared : ∀ i : Fin classes.length,
      ((classes.map Class.hideNames).get (i.cast hlen)).declared =
        (classes.get i).declared.hideNames := fun i => by
    rw [← Class.declared_hideNames]
    simp
  have hmethods := flatMap_copies_map
    (show ∀ ancestor : Declared,
      ancestor.hideNames.methods = ancestor.methods.map Method.hideName from fun _ => rfl)
    hdeclared found
  have hfields := flatMap_copies_map
    (show ∀ ancestor : Declared, ancestor.hideNames.fields = ancestor.fields.map id from
      fun ancestor => (List.map_id ancestor.fields).symm)
    hdeclared found
  rw [inherit, inherit, Class.hideNames, Class.hideNames, hmethods, hfields, List.map_append,
    List.map_append]

/-- **Names may be hidden before resolving or after.** -/
theorem resolve_hideNames (limit : Nat) (classes : List Class) :
    resolve limit (classes.map Class.hideNames) =
      (resolve limit classes).map Resolution.hideNames := by
  have hkeys := edgeKeys_hideNames classes
  cases hr : resolve limit classes with
  | error e => exact (resolve_error_of_keys hkeys).mpr hr
  | ok r =>
    obtain ⟨above, habove, rfl⟩ := resolve_eq_ok_iff.mp hr
    rw [resolve_ok_of_keys hkeys habove]
    refine congrArg Except.ok ?_
    rw [Resolution.hideNames, List.map_ofFn]
    congr 2
    funext i
    rw [Function.comp_apply, ← inherit_hideNames (length_eq_of_edgeKeys hkeys)]
    simp

end Inheritance

/-! ### Atlases -/

/-- Results that a change makes equal are the same failure, or outcomes that it makes equal. -/
theorem exists_of_map_eq {α β : Type} {f : α → β} {x y : Except Error α} (h : x.map f = y.map f) :
    (∃ e, x = .error e ∧ y = .error e) ∨ ∃ a b, x = .ok a ∧ y = .ok b ∧ f a = f b := by
  cases x with
  | error e =>
    cases y with
    | error e' => exact Or.inl ⟨e, rfl, congrArg Except.error (Except.error.inj h).symm⟩
    | ok b => cases h
  | ok a =>
    cases y with
    | error e => cases h
    | ok b => exact Or.inr ⟨a, b, rfl, rfl, Except.ok.inj h⟩

namespace Atlas

variable (d d' : Demangler) (limit : Nat) (fileName : String)

/-- **Without displayed names the atlas of a tree is the same** under all demanglers, and they are
asked the same. -/
theorem ofTree_hideNames (root : Ast.Node) :
    (ofTree d limit fileName root).requests = (ofTree d' limit fileName root).requests ∧
      (ofTree d limit fileName root).result.map hideNames =
        (ofTree d' limit fileName root).result.map hideNames := by
  obtain ⟨e, h, h'⟩ | ⟨found, found', h, h', hfound⟩ :=
    exists_of_map_eq (Walk.collect_hideNames d d' root)
  · rw [ofTree_of_refused h, ofTree_of_refused h']
    exact ⟨rfl, rfl⟩
  · obtain ⟨hclasses, hrequests⟩ := Collection.mk.inj hfound
    have hresolve : (Inheritance.resolve limit found.classes).map Inheritance.Resolution.hideNames =
        (Inheritance.resolve limit found'.classes).map Inheritance.Resolution.hideNames := by
      rw [← Inheritance.resolve_hideNames, hclasses, Inheritance.resolve_hideNames]
    rw [ofTree_eq h, ofTree_eq h']
    refine ⟨hrequests, ?_⟩
    dsimp only
    obtain ⟨e, hr, hr'⟩ | ⟨r, r', hr, hr', hhidden⟩ := exists_of_map_eq hresolve
    · rw [hr, hr']
    · obtain ⟨hclasses, hunresolved⟩ := Inheritance.Resolution.mk.inj hhidden
      rw [hr, hr']
      simp [Except.map, hideNames, hclasses, hunresolved]

/-- **A demangler decides the displayed names of methods and nothing else.** Whatever two
demanglers answer, the atlas of a dump is the same but for these names, or the same failure comes
out, and both are asked the same requests in the same order. -/
theorem ofDump_same_but_displayed_names (dump : String) :
    (ofDump d limit fileName dump).requests = (ofDump d' limit fileName dump).requests ∧
      ((∃ e, (ofDump d limit fileName dump).result = .error e ∧
          (ofDump d' limit fileName dump).result = .error e) ∨
        ∃ atlas atlas', (ofDump d limit fileName dump).result = .ok atlas ∧
          (ofDump d' limit fileName dump).result = .ok atlas' ∧
          atlas.hideNames = atlas'.hideNames) := by
  rw [ofDump, ofDump]
  cases Ast.Node.ofDump dump with
  | error fault => exact ⟨rfl, Or.inl ⟨_, rfl, rfl⟩⟩
  | ok root =>
    obtain ⟨hrequests, hresult⟩ := ofTree_hideNames d d' limit fileName root
    exact ⟨hrequests, exists_of_map_eq hresult⟩

end Atlas

end ClassAtlas
