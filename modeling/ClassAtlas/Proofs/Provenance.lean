import ClassAtlas.Atlas
import ClassAtlas.Proofs.Inheritance.Flattening
import ClassAtlas.Proofs.Walk.Collection
/-!
# Where the members of an atlas come from

Every entry in the member lists of an atlas can be traced back to a declaration in the dump, also
after its members have been sorted (`ClassAtlas.Atlas.members_come_from_declarations`). An entry
without a chain is an own member. An entry with a chain has come along a run of bases: the first
link is what some base of its class stands for, each further link what some base of the link before
stands for, and it is an own member of the last one
(`ClassAtlas.Atlas.CameAlong`). The links are the classes as they were collected, with nothing
inherited in them, so a link taken as a class of its own (`ClassAtlas.Declared.toClass`) is one of
the collected classes.

Each step of the making of an atlas contributes one fact: the walk collects own members only and
makes the names; resolving copies along routes that the limit bounds; sorting moves entries about
and changes none.
-/

namespace ClassAtlas

variable {μ : Type}

/-! ### Classes as they were declared -/

/-- **The ancestor as a class**, which has inherited nothing. -/
def Declared.toClass (ancestor : Declared) : Class where
  name := ancestor.name
  fullName := ancestor.fullName
  methods := ancestor.methods.map fun m => { member := m }
  fields := ancestor.fields.map fun m => { member := m }
  info := ancestor.info

theorem map_ownMembers {entries : List (Entry μ)} (hown : ∀ entry ∈ entries, entry.isOwn) :
    (ownMembers entries).map (fun m => ({ member := m } : Entry μ)) = entries := by
  rw [ownMembers, List.filter_eq_self.mpr hown, List.map_map]
  have hkept : ∀ entry ∈ entries, ({ member := entry.member } : Entry μ) = entry := by
    rintro ⟨member, chain⟩ hentry
    have hnone : chain = none := Option.isNone_iff_eq_none.mp (hown _ hentry)
    rw [hnone]
  exact (List.map_congr_left hkept).trans (List.map_id entries)

/-- A class with own members only loses nothing as an ancestor. -/
theorem Class.toClass_declared {c : Class} (h : c.OwnOnly) : c.declared.toClass = c := by
  obtain ⟨name, fullName, methods, fields, info⟩ := c
  rw [Class.declared, Declared.toClass]
  simp only
  rw [map_ownMembers h.1, map_ownMembers h.2]

/-- The full name of the class that an entry of the given class was declared in. -/
def Entry.declaringName (c : Class) (entry : Entry μ) : String :=
  ((entry.chain.getD []).getLast?.map Declared.fullName).getD c.fullName

namespace Atlas

/-! ### Entries and their chains -/

section Entries

variable {classes : List Class} {limit : Nat} {c : Class} {members : Declared → List μ}
  {entry : Entry μ}

/-- **An entry of a class came along a chain**: the links are the classes on a run of bases from the
class, no more of them than the limit allows, and the last of them has the member as its own. -/
structure CameAlong (classes : List Class) (limit : Nat) (c : Class)
    (members : Declared → List μ) (entry : Entry μ) (chain : List Declared) : Prop where
  /-- Each link is the class that some base of the one before stands for. -/
  run : ∃ route, Inheritance.IsRun classes c route ∧
    chain.map Declared.toClass = route.map classes.get
  /-- There is at least one link. -/
  pos : 1 ≤ chain.length
  /-- There are no more links than the limit allows. -/
  le_limit : chain.length ≤ limit
  /-- The member belongs to the last link. -/
  mem_last : ∃ last, chain.getLast? = some last ∧ entry.member ∈ members last

/-- **The origin of an entry**: it is an own member or came along a chain, and both ways to ask
which of the two give the same answer. -/
structure HasOrigin (classes : List Class) (limit : Nat) (c : Class)
    (members : Declared → List μ) (entry : Entry μ) : Prop where
  /-- The entry has no chain or came along the one that it has. -/
  chain : entry.chain = none ∨
    ∃ chain, entry.chain = some chain ∧ CameAlong classes limit c members entry chain
  /-- A chain is never empty. -/
  isInherited_eq : entry.isInherited = !entry.isOwn

theorem hasOrigin_of_chain_eq_none (h : entry.chain = none) :
    HasOrigin classes limit c members entry where
  chain := Or.inl h
  isInherited_eq := by simp [Entry.isInherited, Entry.isOwn, h]

theorem CameAlong.hasOrigin {chain : List Declared} (hchain : entry.chain = some chain)
    (h : CameAlong classes limit c members entry chain) :
    HasOrigin classes limit c members entry where
  chain := Or.inr ⟨chain, hchain, h⟩
  isInherited_eq := by
    have hne : chain ≠ [] := List.length_pos_iff.mp h.pos
    simp [Entry.isInherited, Entry.isOwn, hchain, hne]

theorem isRun_congr {c' : Class} (hname : c'.fullName = c.fullName) (hinfo : c'.info = c.info)
    {route : List (Fin classes.length)} :
    Inheritance.IsRun classes c' route ↔ Inheritance.IsRun classes c route := by
  cases route with
  | nil => exact Iff.rfl
  | cons i route =>
    rw [Inheritance.IsRun, Inheritance.IsRun, Inheritance.IsBase, Inheritance.IsBase, hname, hinfo]

/-- Of its class an origin sees the name and the bases. -/
theorem HasOrigin.congr {c' : Class} (h : HasOrigin classes limit c members entry)
    (hname : c'.fullName = c.fullName) (hinfo : c'.info = c.info) :
    HasOrigin classes limit c' members entry where
  chain := by
    refine h.chain.imp_right fun ⟨chain, hchain, hcame⟩ => ⟨chain, hchain, ?_⟩
    obtain ⟨route, hrun, hlinks⟩ := hcame.run
    exact { hcame with run := ⟨route, (isRun_congr hname hinfo).mpr hrun, hlinks⟩ }
  isInherited_eq := h.isInherited_eq

end Entries

/-! ### Resolving -/

section Resolving

open Inheritance

variable {classes : List Class} {limit : Nat} {members : Declared → List μ}

/-- A copy came along the route of its edge. -/
theorem cameAlong_of_mem_inherited (hown : ∀ c ∈ classes, c.OwnOnly) {c : Class}
    {found : List (Edge classes)} (hfound : edgesWithin classes limit c = some found)
    {entry : Entry μ} (h : entry ∈ inherited classes members found) :
    ∃ chain, entry.chain = some chain ∧ CameAlong classes limit c members entry chain := by
  obtain ⟨before, i, hedge, hchain, hmem⟩ := exists_route_of_mem_inherited h
  have hlength : (chainOf classes (before ++ [i])).length = (before ++ [i]).length :=
    List.length_map ..
  refine ⟨_, hchain, ⟨_, (isRun_of_reached_mem hfound hedge).1, ?_⟩, ?_, ?_, _,
    getLast?_chainOf_concat before i, hmem⟩
  · rw [chainOf, List.map_map]
    exact List.map_congr_left fun i _ => Class.toClass_declared (hown _ (List.get_mem classes i))
  · rw [hlength]
    exact List.length_pos_iff.mpr (List.concat_ne_nil i before)
  · rw [hlength]
    exact length_le_of_reached_mem hfound hedge

/-- **Every entry of a member list has an origin** after resolving. -/
theorem hasOrigin_of_mem (hown : ∀ c ∈ classes, c.OwnOnly) {c : Class}
    {found : List (Edge classes)} (hfound : edgesWithin classes limit c = some found)
    {entries : List (Entry μ)} (hentries : ∀ entry ∈ entries, entry.isOwn) {entry : Entry μ}
    (h : entry ∈ entries ++ inherited classes members found) :
    HasOrigin classes limit c members entry := by
  rcases List.mem_append.mp h with hmem | hmem
  · exact hasOrigin_of_chain_eq_none (Option.isNone_iff_eq_none.mp (hentries entry hmem))
  · obtain ⟨chain, hchain, hcame⟩ := cameAlong_of_mem_inherited hown hfound hmem
    exact hcame.hasOrigin hchain

end Resolving

/-! ### Names -/

section Names

variable {demangler : Demangler} {root : Ast.Node} {collection : Collection}

/-- **The full name of a method** of a class with the given full name: that name, a separator, and
the trimmed name of some method of the tree. -/
def IsMethodName (root : Ast.Node) (className fullName : String) : Prop :=
  ∃ q, (root.nodeAt q).declKind.isFunction = true ∧
    fullName = className ++ "::" ++ Text.trim (Walk.declaredName root q)

/-- A collected class is one that a record of the tree opens. -/
theorem exists_classAt_of_mem (h : collect demangler root = .ok collection) {c : Class}
    (hc : c ∈ collection.classes) : ∃ p, root.Has p ∧ c = Walk.classAt demangler root p := by
  obtain ⟨-, -, rfl⟩ := Walk.collect_eq_ok_iff.mp h
  obtain ⟨p, hp, rfl⟩ := List.mem_map.mp hc
  exact ⟨p, Walk.has_of_opens (of_decide_eq_true (List.mem_filter.mp hp).2), rfl⟩

/-- **What is collected has own members only.** -/
theorem ownOnly_of_collect (h : collect demangler root = .ok collection) :
    ∀ c ∈ collection.classes, c.OwnOnly := by
  intro c hc
  obtain ⟨p, -, rfl⟩ := exists_classAt_of_mem h hc
  constructor
  · intro method hmethod
    obtain ⟨q, -, rfl⟩ := List.mem_map.mp hmethod
    rfl
  · intro field hfield
    obtain ⟨q, -, rfl⟩ := List.mem_map.mp hfield
    rfl

/-- What is collected has the full names of methods made from that of their class. -/
theorem isMethodName_of_collect (h : collect demangler root = .ok collection) :
    ∀ c ∈ collection.classes, ∀ entry ∈ c.methods,
      IsMethodName root c.fullName entry.member.fullName := by
  intro c hc entry hentry
  obtain ⟨p, hp, rfl⟩ := exists_classAt_of_mem h hc
  obtain ⟨q, hq, rfl⟩ := List.mem_map.mp hentry
  exact ⟨q, ((Walk.lists_methodSites hp).mem_iff q).mp hq |>.1, rfl⟩

/-- The full name of a collected class is bare. -/
theorem not_isPrefix_of_collect (h : collect demangler root = .ok collection) :
    ∀ c ∈ collection.classes, ¬[':', ':'] <+: c.fullName.toList := by
  intro c hc
  obtain ⟨p, -, rfl⟩ := exists_classAt_of_mem h hc
  exact Name.not_isPrefix_bare _

open Inheritance in
/-- **The full name of a method keeps that of the class where it was declared**, through
inheritance. -/
theorem isMethodName_of_mem {classes : List Class} {limit : Nat}
    (hown : ∀ c ∈ classes, c.OwnOnly)
    (hnames : ∀ c ∈ classes, ∀ entry ∈ c.methods,
      IsMethodName root c.fullName entry.member.fullName)
    {c : Class} (hc : c ∈ classes) {found : List (Edge classes)}
    (hfound : edgesWithin classes limit c = some found) {entry : Entry Method}
    (h : entry ∈ c.methods ++ inherited classes Declared.methods found) :
    IsMethodName root (entry.declaringName c) entry.member.fullName := by
  rcases List.mem_append.mp h with hmem | hmem
  · have hnone : entry.chain = none := Option.isNone_iff_eq_none.mp ((hown c hc).1 entry hmem)
    rw [Entry.declaringName, hnone]
    exact hnames c hc entry hmem
  · obtain ⟨chain, hchain, hcame⟩ := cameAlong_of_mem_inherited hown hfound hmem
    obtain ⟨last, hlast, hmember⟩ := hcame.mem_last
    obtain ⟨route, -, hlinks⟩ := hcame.run
    have hdeclaring : entry.declaringName c = last.fullName := by
      rw [Entry.declaringName, hchain, Option.getD_some, hlast]
      rfl
    -- the last link is one of the classes, and there the member is an own one
    have hlink : last.toClass ∈ classes := by
      have hlast' : last.toClass ∈ chain.map Declared.toClass :=
        List.mem_map_of_mem (List.mem_of_getLast? hlast)
      rw [hlinks] at hlast'
      obtain ⟨i, -, hi⟩ := List.mem_map.mp hlast'
      exact hi ▸ List.get_mem classes i
    rw [hdeclaring]
    exact hnames last.toClass hlink ⟨entry.member, none⟩ (List.mem_map_of_mem hmember)

end Names

/-! ### Atlases -/

variable {limit : Nat} {root : Ast.Node} {classes : List Class}

/-- **A class all of whose entries can be traced back**: its full name is bare, its entries have
their origin among the given classes, and its methods are named after the classes where they were
declared. -/
structure Traceable (root : Ast.Node) (classes : List Class) (limit : Nat) (c : Class) : Prop where
  /-- The full name does not begin with a separator. -/
  bare : ¬[':', ':'] <+: c.fullName.toList
  /-- The fields have an origin. -/
  fields : ∀ entry ∈ c.fields, HasOrigin classes limit c Declared.fields entry
  /-- The methods have an origin. -/
  methods : ∀ entry ∈ c.methods, HasOrigin classes limit c Declared.methods entry
  /-- The methods are named after the classes where they were declared. -/
  names : ∀ entry ∈ c.methods, IsMethodName root (entry.declaringName c) entry.member.fullName

/-- Sorting leaves a class traceable. -/
theorem Traceable.sortMembers {c : Class} (h : Traceable root classes limit c) :
    Traceable root classes limit c.sortMembers where
  bare := h.bare
  fields entry hentry := (h.fields entry (List.mem_mergeSort.mp hentry)).congr rfl rfl
  methods entry hentry := (h.methods entry (List.mem_mergeSort.mp hentry)).congr rfl rfl
  names entry hentry := h.names entry (List.mem_mergeSort.mp hentry)

/-- Resolving what was collected gives classes that are traceable. -/
theorem traceable_of_resolve {demangler : Demangler} {collection : Collection}
    (hcollect : collect demangler root = .ok collection) {r : Inheritance.Resolution}
    (hresolve : Inheritance.resolve limit collection.classes = .ok r) :
    ∀ c ∈ r.classes, Traceable root collection.classes limit c := by
  intro c hc
  have hown := ownOnly_of_collect hcollect
  obtain ⟨above, habove, rfl⟩ := Inheritance.resolve_eq_ok_iff.mp hresolve
  obtain ⟨i, rfl⟩ := List.mem_ofFn.mp hc
  have hlisted : collection.classes.get i ∈ collection.classes := List.get_mem _ i
  have hbare := not_isPrefix_of_collect hcollect _ hlisted
  exact
    { bare := hbare
      fields := fun entry hentry =>
        (hasOrigin_of_mem hown (habove i) (hown _ hlisted).2 hentry).congr rfl rfl
      methods := fun entry hentry =>
        (hasOrigin_of_mem hown (habove i) (hown _ hlisted).1 hentry).congr rfl rfl
      names := fun entry hentry =>
        isMethodName_of_mem hown (isMethodName_of_collect hcollect) hlisted (habove i) hentry }

/-- **The steps to an atlas**: the dump is read, its classes are collected, and these are
resolved. -/
theorem ofDump_result_eq_ok_iff {demangler : Demangler} {fileName dump : String} {atlas : Atlas} :
    (ofDump demangler limit fileName dump).result = .ok atlas ↔
      ∃ root collection r, Ast.Node.ofDump dump = .ok root ∧
        collect demangler root = .ok collection ∧
        Inheritance.resolve limit collection.classes = .ok r ∧
        atlas = { fileName, classes := r.classes, unresolved := r.unresolved } := by
  rw [ofDump]
  cases Ast.Node.ofDump dump with
  | error fault => simp
  | ok root =>
    simp only [Except.ok.injEq, exists_eq_left', exists_and_left]
    cases hcollect : collect demangler root with
    | error e =>
      rw [ofTree_of_refused hcollect]
      simp
    | ok collection =>
      rw [ofTree_eq hcollect]
      simp only [Except.ok.injEq, exists_eq_left']
      cases Inheritance.resolve limit collection.classes <;> simp [Except.map, eq_comm]

/-- **Every member of an atlas comes from a declaration.** When a dump makes an atlas, its classes
were collected from the tree of the dump, and in the atlas, sorted or not, each class is traceable
to them: an entry of its member lists is an own member, or came along a run of bases that is no
longer than the limit from the last class of the run, which has the member as its own; and both
ways to ask whether it is inherited agree. The full name of a method is that of the class where it
was declared, followed by the name that it has in the tree. No full name of a class begins with a
separator. -/
theorem members_come_from_declarations {demangler : Demangler} {limit : Nat}
    {fileName dump : String} {atlas : Atlas}
    (h : (ofDump demangler limit fileName dump).result = .ok atlas) :
    ∃ root collection, Ast.Node.ofDump dump = .ok root ∧ collect demangler root = .ok collection ∧
      ∀ view, view = atlas ∨ view = atlas.sortMembers →
        ∀ c ∈ view.classes, Traceable root collection.classes limit c := by
  obtain ⟨root, collection, r, hdump, hcollect, hresolve, rfl⟩ := ofDump_result_eq_ok_iff.mp h
  refine ⟨root, collection, hdump, hcollect, ?_⟩
  have htraceable := traceable_of_resolve hcollect hresolve
  rintro view (rfl | rfl) c hc
  · exact htraceable c hc
  · obtain ⟨unsorted, hunsorted, rfl⟩ := List.mem_map.mp hc
    exact (htraceable unsorted hunsorted).sortMembers

/-- A class with a method, and one that has it as a base. -/
def inheritingDump : String :=
  "[\"TranslationUnitDecl\", null, [[\"CXXRecordDecl\", \"A\", [[\"CXXMethodDecl\", \" f \"]]],
    \x7b\"kind\": \"CXXRecordDecl\", \"name\": \"B\", \"bases\": [[\"public\", [\"::A\"]]]\x7d]]"

/-- The second class has the method of the first one under the full name that it has there. -/
theorem members_come_from_declarations_inheriting :
    ∃ atlas, (ofDump Demangler.silent 1 "b.cpp" inheritingDump).result = .ok atlas ∧
      (atlas.classes.map fun c => c.methods.map fun entry =>
        (entry.member.fullName, entry.chainNames)) = [[("A::f", [])], [("A::f", ["A"])]] ∧
      ∃ root collection, Ast.Node.ofDump inheritingDump = .ok root ∧
        collect Demangler.silent root = .ok collection ∧
        ∀ c ∈ atlas.classes, Traceable root collection.classes 1 c := by
  have hmethods : ((ofDump Demangler.silent 1 "b.cpp" inheritingDump).result.map fun atlas =>
      atlas.classes.map fun c => c.methods.map fun entry =>
        (entry.member.fullName, entry.chainNames)) = .ok [[("A::f", [])], [("A::f", ["A"])]] := by
    decide +kernel
  cases hresult : (ofDump Demangler.silent 1 "b.cpp" inheritingDump).result with
  | error e =>
    rw [hresult] at hmethods
    cases hmethods
  | ok atlas =>
    rw [hresult] at hmethods
    obtain ⟨root, collection, hdump, hcollect, htraceable⟩ :=
      members_come_from_declarations hresult
    exact ⟨atlas, rfl, Except.ok.inj hmethods, root, collection, hdump, hcollect,
      htraceable atlas (Or.inl rfl)⟩

end Atlas

end ClassAtlas
