import Mathlib.Data.List.Flatten
import Mathlib.Data.List.OfFn
import ClassAtlas.Proofs.Inheritance.Insertion
import ClassAtlas.Proofs.Inheritance.Missing
/-!
# A class with a name of its own

When a class is put into a list that has none of its name, every base that stood for something
stands for the same class still, and only a base that was missing can have come to stand for
something new, namely for that class. So nothing that was there goes away
(`ClassAtlas.Inheritance.another_class_only_adds`). Resolving the longer list can fail where
resolving the shorter one does not, since there are more ways up; it never is the other way round.

Two climbs are compared for this, from one class in the two lists. They have the same edges until a
missing base of the new name is met; there the climb in the longer list goes on into the new class,
and may come back from there to any class, while the other climb stops. The relation between what
the two find says just that: one list of edges is the other one with some missing bases replaced by
any edges at all (`ClassAtlas.Inheritance.Grown`).
-/

namespace ClassAtlas

/-- **A class has kept all it had**: its names and what else is known of it are the same, and its
members are still there, in the same order and with the same chains. -/
structure Class.KeptIn (c d : Class) : Prop where
  /-- The name is the same. -/
  name : d.name = c.name
  /-- The full name is the same. -/
  fullName : d.fullName = c.fullName
  /-- What else is known is the same. -/
  info : d.info = c.info
  /-- No method is lost or moved. -/
  methods : c.methods.Sublist d.methods
  /-- No field is lost or moved. -/
  fields : c.fields.Sublist d.fields

namespace Inheritance

/-! ### Lists of edges that grow -/

section Grown

variable {xs ys : List Class}

/-- **A list of edges has grown** into one of another list of classes: some missing bases with a
certain name have been replaced by other edges, and all else has been kept. The positions of the
classes are changed along. -/
inductive Grown (f : Fin xs.length → Fin ys.length) (name : String) :
    List (Edge xs) → List (Edge ys) → Prop
  /-- Nothing has grown. -/
  | nil : Grown f name [] []
  /-- An edge has been kept. -/
  | keep (edge : Edge xs) {found : List (Edge xs)} {found' : List (Edge ys)} :
      Grown f name found found' → Grown f name (edge :: found) (edge.map f :: found')
  /-- A missing base with the name has been replaced. -/
  | fill {missing : UnresolvedBase} (more : List (Edge ys)) {found : List (Edge xs)}
      {found' : List (Edge ys)} :
      Name.same missing.base name = true → Grown f name found found' →
        Grown f name (.missing missing :: found) (more ++ found')

variable {f : Fin xs.length → Fin ys.length} {name : String} {found : List (Edge xs)}
  {found' : List (Edge ys)}

theorem Grown.append (h : Grown f name found found') {rest : List (Edge xs)}
    {rest' : List (Edge ys)} (hrest : Grown f name rest rest') :
    Grown f name (found ++ rest) (found' ++ rest') := by
  induction h with
  | nil => exact hrest
  | keep edge _ ih => exact .keep edge ih
  | fill more hname _ ih =>
    rw [List.cons_append, List.append_assoc]
    exact .fill more hname ih

theorem Grown.flatMap {α : Type} {l : List α} {g : α → List (Edge xs)} {g' : α → List (Edge ys)}
    (h : ∀ a ∈ l, Grown f name (g a) (g' a)) : Grown f name (l.flatMap g) (l.flatMap g') := by
  induction l with
  | nil => exact .nil
  | cons a l ih =>
    obtain ⟨hhead, htail⟩ := List.forall_mem_cons.mp h
    exact hhead.append (ih htail)

/-- Edges that have grown have grown also when they are seen from one class further down. -/
theorem Grown.map_via (h : Grown f name found found') (i : Fin xs.length) :
    Grown f name (found.map (Edge.via i)) (found'.map (Edge.via (f i))) := by
  induction h with
  | nil => exact .nil
  | keep edge _ ih =>
    rw [List.map_cons, List.map_cons, ← Edge.map_via]
    exact .keep (edge.via i) ih
  | fill more hname _ ih =>
    rw [List.map_cons, List.map_append]
    exact .fill (more.map (Edge.via (f i))) hname ih

/-- Where no base with the name was missing, nothing has grown. -/
theorem Grown.eq_map (h : Grown f name found found')
    (hnone : ∀ missing, .missing missing ∈ found → ¬Name.same missing.base name = true) :
    found' = found.map (Edge.map f) := by
  induction h with
  | nil => rfl
  | keep edge _ ih =>
    rw [ih fun missing hmem => hnone missing (List.mem_cons_of_mem _ hmem), List.map_cons]
  | fill more hname _ _ => exact absurd hname (hnone _ List.mem_cons_self)

theorem chainOf_map (hget : ∀ i, ys.get (f i) = xs.get i) (route : List (Fin xs.length)) :
    chainOf ys (route.map f) = chainOf xs route := by
  rw [chainOf, chainOf, List.map_map]
  exact List.map_congr_left fun i _ => congrArg Class.declared (hget i)

/-- **Every chain is still there** when edges have grown, and the chains stand in the same order. -/
theorem Grown.chains_sublist (h : Grown f name found found')
    (hget : ∀ i, ys.get (f i) = xs.get i) : (chains xs found).Sublist (chains ys found') := by
  induction h with
  | nil => exact List.Sublist.slnil
  | @keep edge found found' _ ih =>
    cases edge with
    | missing base => exact ih
    | reached route =>
      have hfirst : chains ys ((Edge.reached route).map f :: found') =
          chainOf xs route :: chains ys found' :=
        congrArg (· :: chains ys found') (chainOf_map hget route)
      rw [hfirst]
      exact ih.cons_cons (chainOf xs route)
  | @fill missing more found found' _ _ ih =>
    have happend : chains ys (more ++ found') = chains ys more ++ chains ys found' :=
      List.filterMap_append
    rw [happend]
    exact List.sublist_append_of_sublist_right ih

/-- A class keeps what it inherits when the edges above it have grown. -/
theorem Grown.keptIn (h : Grown f name found found') (hget : ∀ i, ys.get (f i) = xs.get i)
    (c : Class) : (inherit xs c found).KeptIn (inherit ys c found') where
  name := rfl
  fullName := rfl
  info := rfl
  methods := (List.Sublist.refl c.methods).append ((h.chains_sublist hget).flatMap _)
  fields := (List.Sublist.refl c.fields).append ((h.chains_sublist hget).flatMap _)

end Grown

/-! ### One class more -/

section Insert

variable {xs : List Class} {K : Class} {p limit : Nat} {c : Class}
  (hnew : ∀ c ∈ xs, ¬Name.same c.fullName K.fullName = true)

/-- A base with another name than the new class stands for what it stood for. -/
theorem lookup?_insertIdx {qualified : String} (h : ¬Name.same qualified K.fullName = true)
    (fromName : String) :
    lookup? (xs.insertIdx p K) qualified fromName =
      (lookup? xs qualified fromName).map (aroundInserted xs p K) := by
  refine lookup?_eq_map get_aroundInserted (fun _ _ _ hle => aroundInserted_le hle) fromName rfl
    fun j hj => Or.inl ((eq_aroundInserted_or_get_eq j).resolve_right fun hK => h ?_)
  rw [hK, isNamed_iff] at hj
  exact Name.same_iff.mpr hj.symm

include hnew

/-- What stands for a class of the list has not the name of the new class. -/
theorem not_same_of_lookup? {qualified fromName : String} {i : Fin xs.length}
    (h : lookup? xs qualified fromName = some i) : ¬Name.same qualified K.fullName = true := by
  intro hsame
  refine hnew (xs.get i) (List.get_mem xs i) ?_
  rw [Name.same_iff, isNamed_iff.mp (isNamed_of_lookup? h)]
  exact Name.same_iff.mp hsame

/-- A base with the name of the new class was missing. -/
theorem lookup?_eq_none_of_same {qualified : String} (h : Name.same qualified K.fullName = true)
    (fromName : String) : lookup? xs qualified fromName = none := by
  cases hlookup : lookup? xs qualified fromName with
  | none => rfl
  | some i => exact absurd h (not_same_of_lookup? hnew hlookup)

/-- **Every base that stood for a class stands for it still.** -/
theorem isBase_insertIdx {i : Fin xs.length} (h : IsBase xs c i) :
    IsBase (xs.insertIdx p K) c (aroundInserted xs p K i) := by
  obtain ⟨base, hbase, hi⟩ := h
  refine ⟨base, hbase, ?_⟩
  rw [lookup?_insertIdx (not_same_of_lookup? hnew hi), hi, Option.map_some]

/-- Every run is still one. -/
theorem hasRun_insertIdx {n : Nat} (h : HasRun xs c n) : HasRun (xs.insertIdx p K) c n := by
  induction n generalizing c with
  | zero => exact hasRun_zero c
  | succ n ih =>
    obtain ⟨i, hi, hrun⟩ := hasRun_succ.mp h
    refine hasRun_succ.mpr ⟨aroundInserted xs p K i, isBase_insertIdx hnew hi, ?_⟩
    rw [get_aroundInserted]
    exact ih hrun

/-- **The shorter list can be resolved if the longer one can.** -/
theorem exists_resolve_of_insertIdx (hp : p ≤ xs.length) {r' : Resolution}
    (h : resolve limit (xs.insertIdx p K) = .ok r') : ∃ r, resolve limit xs = .ok r := by
  rw [exists_resolve_eq_ok_iff]
  intro c hc hrun
  exact exists_resolve_eq_ok_iff.mp ⟨r', h⟩ c ((List.mem_insertIdx hp).mpr (Or.inr hc))
    (hasRun_insertIdx hnew hrun)

/-- The edges of one base grow, if those above the class that it stands for do. -/
theorem grown_edgesFrom {above : Fin xs.length → List (Edge xs)}
    {above' : Fin (xs.insertIdx p K).length → List (Edge (xs.insertIdx p K))}
    {fromName : String} {base : Ast.BaseClause}
    (h : ∀ i, lookup? xs base.declared fromName = some i →
      Grown (aroundInserted xs p K) K.fullName (above i) (above' (aroundInserted xs p K i))) :
    Grown (aroundInserted xs p K) K.fullName (edgesFrom xs above fromName base)
      (edgesFrom (xs.insertIdx p K) above' fromName base) := by
  by_cases hsame : Name.same base.declared K.fullName = true
  · -- whatever leads up from the new class takes the place of the missing base
    have hbare : Name.same (unresolved base.declared fromName).base K.fullName = true := by
      rw [unresolved, Name.same_iff, Name.bare_bare]
      exact Name.same_iff.mp hsame
    rw [edgesFrom_of_none (lookup?_eq_none_of_same hnew hsame fromName)]
    simpa using Grown.fill (edgesFrom (xs.insertIdx p K) above' fromName base) hbare .nil
  · have hlookup : lookup? (xs.insertIdx p K) base.declared fromName =
        (lookup? xs base.declared fromName).map (aroundInserted xs p K) :=
      lookup?_insertIdx hsame fromName
    cases hi : lookup? xs base.declared fromName with
    | none =>
      rw [hi, Option.map_none] at hlookup
      rw [edgesFrom_of_none hi, edgesFrom_of_none hlookup]
      exact .keep (.missing _) .nil
    | some i =>
      rw [hi, Option.map_some] at hlookup
      rw [edgesFrom_of_some hi, edgesFrom_of_some hlookup]
      exact .keep (.reached [i]) ((h i hi).map_via i)

/-- **The edges above a class have grown** in the longer list. -/
theorem grown_edgesWithin {limit' : Nat} {found : List (Edge xs)}
    {found' : List (Edge (xs.insertIdx p K))} (h : edgesWithin xs limit c = some found)
    (h' : edgesWithin (xs.insertIdx p K) limit' c = some found') :
    Grown (aroundInserted xs p K) K.fullName found found' := by
  refine edges_induction (P := fun c found => ∀ found',
    edgesWithin (xs.insertIdx p K) limit' c = some found' →
      Grown (aroundInserted xs p K) K.fullName found found')
    (fun c above ih found' h' => ?_) h found' h'
  obtain ⟨hsome, rfl⟩ := edgesWithin_fixed h'
  refine Grown.flatMap fun base hbase => grown_edgesFrom hnew fun i hi => ?_
  refine ih i ⟨base, hbase, hi⟩ _ ?_
  obtain ⟨edges, hedges⟩ := Option.isSome_iff_exists.mp
    (hsome _ (isBase_insertIdx hnew ⟨base, hbase, hi⟩))
  rw [edgesAbove, hedges, Option.getD_some, ← hedges, get_aroundInserted]

/-- **A class of the list misses what it missed**, but for the new class. -/
theorem isMissing_insertIdx_iff (hp : p ≤ xs.length) (hc : c ∈ xs) {missing : UnresolvedBase} :
    IsMissing (xs.insertIdx p K) c missing ↔
      IsMissing xs c missing ∧ ¬Name.same missing.base K.fullName = true := by
  constructor
  · rintro ⟨base, hbase, hnone, rfl⟩
    have hdiffer : ¬Name.same base.declared K.fullName = true := by
      intro hsame
      rcases lookup?_eq_none_iff.mp hnone with hself | hunnamed
      · refine hnew c hc ?_
        rw [Name.same_iff, ← Name.same_iff.mp hself]
        exact Name.same_iff.mp hsame
      · obtain ⟨j, hj⟩ := List.mem_iff_get.mp ((List.mem_insertIdx hp).mpr (Or.inl rfl))
        refine hunnamed j ?_
        rw [hj, isNamed_iff, Name.same_iff.mp hsame]
    rw [lookup?_insertIdx hdiffer, Option.map_eq_none_iff] at hnone
    refine ⟨⟨base, hbase, hnone, rfl⟩, ?_⟩
    rwa [Name.same_iff, Name.bare_bare, ← Name.same_iff]
  · rintro ⟨⟨base, hbase, hnone, rfl⟩, hdiffer⟩
    rw [Name.same_iff, Name.bare_bare, ← Name.same_iff] at hdiffer
    exact ⟨base, hbase, by rw [lookup?_insertIdx hdiffer, hnone, Option.map_none], rfl⟩

/-- **What is missing in the longer list**: what was missing and does not name the new class, and
what the new class misses itself. -/
theorem mem_unresolved_insertIdx_iff (hp : p ≤ xs.length) {r r' : Resolution}
    (hr : resolve limit xs = .ok r) (hr' : resolve limit (xs.insertIdx p K) = .ok r')
    (missing : UnresolvedBase) :
    missing ∈ r'.unresolved ↔
      missing ∈ r.unresolved ∧ ¬Name.same missing.base K.fullName = true ∨
        IsMissing (xs.insertIdx p K) K missing := by
  rw [mem_unresolved_iff hr', mem_unresolved_iff hr]
  constructor
  · rintro ⟨c, hc, hmissing⟩
    rcases (List.mem_insertIdx hp).mp hc with rfl | hc
    · exact Or.inr hmissing
    · obtain ⟨hold, hdiffer⟩ := (isMissing_insertIdx_iff hnew hp hc).mp hmissing
      exact Or.inl ⟨⟨c, hc, hold⟩, hdiffer⟩
  · rintro (⟨⟨c, hc, hold⟩, hdiffer⟩ | hown)
    · exact ⟨c, (List.mem_insertIdx hp).mpr (Or.inr hc),
        (isMissing_insertIdx_iff hnew hp hc).mpr ⟨hold, hdiffer⟩⟩
    · exact ⟨K, (List.mem_insertIdx hp).mpr (Or.inl rfl), hown⟩

end Insert

/-! ### The outcome -/

section Outcome

variable {xs : List Class} {K : Class} {p limit : Nat}

/-- No missing base that is met from a class of a list names a class that none of them has as a
base. -/
theorem not_same_of_missing_mem
    (hunused : ∀ c ∈ xs, ∀ base ∈ c.info.bases, ¬Name.same base.declared K.fullName = true)
    {c : Class} (hc : c ∈ xs) {found : List (Edge xs)} (h : edgesWithin xs limit c = some found)
    {missing : UnresolvedBase} (hmem : .missing missing ∈ found) :
    ¬Name.same missing.base K.fullName = true := by
  obtain ⟨d, hd, base, hbase, -, rfl⟩ : ∃ d ∈ xs, IsMissing xs d missing :=
    (isMissing_of_missing_mem h hmem).elim (fun hown => ⟨c, hc, hown⟩) id
  rw [Name.same_iff, Name.bare_bare, ← Name.same_iff]
  exact hunused d hd base hbase

/-- What stands at the positions of the old classes is left when the new one is taken out. -/
theorem eraseIdx_ofFn (hp : p ≤ xs.length) {α : Type} (g : Fin (xs.insertIdx p K).length → α) :
    (List.ofFn g).eraseIdx p = List.ofFn fun i => g (aroundInserted xs p K i) := by
  have hlength : (xs.insertIdx p K).length = xs.length + 1 :=
    List.length_insertIdx_of_le_length hp K
  refine List.ext_getElem ?_ fun i hi hi' => ?_
  · rw [List.length_eraseIdx, List.length_ofFn, List.length_ofFn, if_pos (by omega), hlength]
    rfl
  · rw [List.getElem_eraseIdx]
    split
    · next hlt =>
      rw [List.getElem_ofFn, List.getElem_ofFn]
      refine congrArg g (Fin.ext ?_)
      exact (if_pos hlt).symm
    · next hge =>
      rw [List.getElem_ofFn, List.getElem_ofFn]
      refine congrArg g (Fin.ext ?_)
      exact (if_neg hge).symm

/-- The old classes in the outcome for the longer list. -/
theorem eraseIdx_inherit (hp : p ≤ xs.length)
    (above : Fin (xs.insertIdx p K).length → List (Edge (xs.insertIdx p K))) :
    (List.ofFn fun j => inherit (xs.insertIdx p K) ((xs.insertIdx p K).get j)
      (above j)).eraseIdx p =
        List.ofFn fun i => inherit (xs.insertIdx p K) (xs.get i)
          (above (aroundInserted xs p K i)) := by
  rw [eraseIdx_ofFn hp]
  simp only [get_aroundInserted]

end Outcome

/-- **Another class only adds.** When a class with a name that no class of a list has is put into
the list at some place, and the longer list can be resolved, then so can the list itself. Each of
its classes has in the outcome for the longer list all it has in the outcome for the list: its
members are there with their chains and in the same order. Of the bases that were missing those are
missing still that do not name the new class, and with them those that the new class misses itself.
If no class of the list has the new class as a base, then all of them come out as they did. -/
theorem another_class_only_adds {xs : List Class} {K : Class}
    (hnew : ∀ c ∈ xs, ¬Name.same c.fullName K.fullName = true) {p : Nat} (hp : p ≤ xs.length)
    {limit : Nat} {r' : Resolution} (h : resolve limit (xs.insertIdx p K) = .ok r') :
    ∃ r, resolve limit xs = .ok r ∧
      List.Forall₂ Class.KeptIn r.classes (r'.classes.eraseIdx p) ∧
      (∀ missing, missing ∈ r'.unresolved ↔
        missing ∈ r.unresolved ∧ ¬Name.same missing.base K.fullName = true ∨
          IsMissing (xs.insertIdx p K) K missing) ∧
      ((∀ c ∈ xs, ∀ base ∈ c.info.bases, ¬Name.same base.declared K.fullName = true) →
        r'.classes.eraseIdx p = r.classes) := by
  obtain ⟨r, hr⟩ := exists_resolve_of_insertIdx hnew hp h
  have hmissing := mem_unresolved_insertIdx_iff hnew hp hr h
  obtain ⟨above, habove, rfl⟩ := resolve_eq_ok_iff.mp hr
  obtain ⟨above', habove', rfl⟩ := resolve_eq_ok_iff.mp h
  have hgrown : ∀ i, Grown (aroundInserted xs p K) K.fullName (above i)
      (above' (aroundInserted xs p K i)) := fun i =>
    grown_edgesWithin hnew (habove i) (get_aroundInserted i ▸ habove' (aroundInserted xs p K i))
  refine ⟨_, hr, ?_, hmissing, fun hunused => ?_⟩
  all_goals rw [eraseIdx_inherit hp]
  · refine List.forall₂_iff_get.mpr ⟨by rw [List.length_ofFn, List.length_ofFn], ?_⟩
    intro i hi hi'
    rw [List.get_ofFn, List.get_ofFn]
    exact (hgrown _).keptIn get_aroundInserted _
  · refine congrArg List.ofFn (funext fun i => ?_)
    have hsame : above' (aroundInserted xs p K i) =
        (above i).map (Edge.map (aroundInserted xs p K)) :=
      (hgrown i).eq_map fun _ hmem =>
        not_same_of_missing_mem hunused (List.get_mem xs i) (habove i) hmem
    rw [hsame, inherit_map get_aroundInserted]

/-- A class with a base that is not there yet and one that never is, and a class with a field. -/
def awaiting : List Class :=
  [sample "D" ["::K", "Ghost"], (sample "A" []).addField ⟨⟨"a", some "int"⟩, none⟩]

/-- The class that was waited for comes in between: the field arrives through it, its name is not
missing any more, and what it misses itself is. A class that nobody has as a base changes nothing
for the others. -/
theorem another_class_only_adds_awaiting :
    (∀ c ∈ awaiting, ¬Name.same c.fullName "K" = true) ∧ 1 ≤ awaiting.length ∧
    (∀ c ∈ awaiting, ∀ base ∈ c.info.bases, ¬Name.same base.declared "Z" = true) ∧
    ∃ r r' r'', resolve 2 awaiting = .ok r ∧
      resolve 2 (awaiting.insertIdx 1 (sample "K" ["A", "Phantom"])) = .ok r' ∧
      resolve 2 (awaiting.insertIdx 0 (sample "Z" ["D"])) = .ok r'' ∧
      r.unresolved = [⟨"K", "D"⟩, ⟨"Ghost", "D"⟩] ∧
      r'.unresolved = [⟨"Phantom", "K"⟩, ⟨"Ghost", "D"⟩] ∧
      r'.classes.map (fun c => c.fields.map Entry.chainNames) = [[["K", "A"]], [["A"]], [[]]] ∧
      List.Forall₂ Class.KeptIn r.classes (r'.classes.eraseIdx 1) ∧
      r''.classes.eraseIdx 0 = r.classes := by
  have hnew : ∀ c ∈ awaiting, ¬Name.same c.fullName "K" = true := by decide
  have hunused : ∀ c ∈ awaiting, ∀ base ∈ c.info.bases, ¬Name.same base.declared "Z" = true := by
    decide
  have hshorter : resolve 2 awaiting = .ok _ := rfl
  have hlonger : resolve 2 (awaiting.insertIdx 1 (sample "K" ["A", "Phantom"])) = .ok _ := rfl
  have hbesides : resolve 2 (awaiting.insertIdx 0 (sample "Z" ["D"])) = .ok _ := rfl
  obtain ⟨r, hr, hkept, -, -⟩ :=
    another_class_only_adds (K := sample "K" ["A", "Phantom"]) hnew (by decide) hlonger
  obtain ⟨r₀, hr₀, -, -, hsame⟩ :=
    another_class_only_adds (K := sample "Z" ["D"]) (by decide) (by decide) hbesides
  cases hr₀.symm.trans hshorter
  cases hr.symm.trans hshorter
  exact ⟨hnew, by decide, hunused, _, _, _, hr, hlonger, hbesides, rfl, rfl, rfl, hkept,
    hsame hunused⟩

end Inheritance

end ClassAtlas
