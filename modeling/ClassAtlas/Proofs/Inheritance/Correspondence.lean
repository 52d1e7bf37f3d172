import Mathlib.Logic.Equiv.Fin.Basic
import ClassAtlas.Proofs.Inheritance.Limit
/-!
# Lists of classes that correspond

A lookup sees of each class only its bare name and whether it is complete
(`ClassAtlas.Inheritance.lookupKey`). So a base stands for the class at the same position in
every list with the same keys in the same order
(`ClassAtlas.Inheritance.lookup?_congr`), however the classes differ otherwise.

Where the positions of two lists correspond and corresponding classes have corresponding bases,
the same runs start in both (`ClassAtlas.Inheritance.hasRun_congr`). Where they also have the same
names, the same edges lead up from them
(`ClassAtlas.Inheritance.edgesWithin_congr`). So two lists whose classes show the edges the same
(`ClassAtlas.Inheritance.edgeKey`) can only fail with the same failure
(`ClassAtlas.Inheritance.resolve_error_of_keys`), and otherwise inherit along the same routes and
miss the same bases (`ClassAtlas.Inheritance.resolve_ok_of_keys`), whatever their members are.
-/

namespace ClassAtlas

/-- The entry with its member and the links of its chain changed. -/
def Entry.map {μ : Type} (member : μ → μ) (link : Declared → Declared) (entry : Entry μ) :
    Entry μ where
  member := member entry.member
  chain := entry.chain.map (List.map link)

namespace Inheritance

/-! ### Lookups -/

/-- What a lookup sees of a class. -/
def lookupKey (c : Class) : String × Bool :=
  (Name.bare c.fullName, c.info.isComplete)

/-- The first position with a property is the same in two lists that have the same keys, when the
property is one of the keys. -/
theorem findFinIdx?_congr {α κ : Type} {xs ys : List α} {key : α → κ}
    (h : xs.map key = ys.map key) (hlen : xs.length = ys.length) (p : κ → Bool) :
    ys.findFinIdx? (fun y => p (key y)) =
      (xs.findFinIdx? fun x => p (key x)).map (Fin.cast hlen) := by
  -- as numbers, both positions are looked for in the list of keys
  refine Option.map_injective Fin.val_injective ?_
  have hval : (xs.findFinIdx? fun x => p (key x)).map (Fin.val ∘ Fin.cast hlen) =
      (xs.findFinIdx? fun x => p (key x)).map Fin.val := rfl
  have hidx : ∀ zs : List α, (zs.findFinIdx? fun z => p (key z)).map Fin.val =
      (zs.map key).findIdx? p := fun zs => by
    rw [List.findIdx?_map, List.findIdx?_eq_map_findFinIdx?_val]
    rfl
  rw [Option.map_map, hval, hidx, hidx, h]

section Lookup

variable {xs ys : List Class} (hkeys : xs.map lookupKey = ys.map lookupKey)

include hkeys

theorem length_eq_of_keys : xs.length = ys.length := by
  simpa using congrArg List.length hkeys

/-- **A base stands for the class at the same position** in lists whose classes have the same
bare names and are complete at the same positions. -/
theorem lookup?_congr {qualified qualified' fromName fromName' : String}
    (hqualified : Name.bare qualified = Name.bare qualified')
    (hfrom : Name.bare fromName = Name.bare fromName') :
    lookup? ys qualified' fromName' =
      (lookup? xs qualified fromName).map (Fin.cast (length_eq_of_keys hkeys)) := by
  have hsame : Name.same qualified' fromName' = Name.same qualified fromName := by
    rw [Name.same, Name.same, hqualified, hfrom]
  have hnamed : firstNamed? ys qualified' =
      (firstNamed? xs qualified).map (Fin.cast (length_eq_of_keys hkeys)) := by
    have hfind := findFinIdx?_congr hkeys (length_eq_of_keys hkeys)
      fun key => key.1 == Name.bare qualified'
    simpa only [firstNamed?, Class.isNamed, Name.same, lookupKey, hqualified] using hfind
  have hcomplete : firstComplete? ys qualified' =
      (firstComplete? xs qualified).map (Fin.cast (length_eq_of_keys hkeys)) := by
    have hfind := findFinIdx?_congr hkeys (length_eq_of_keys hkeys)
      fun key => key.1 == Name.bare qualified' && key.2
    simpa only [firstComplete?, Class.isNamed, Name.same, lookupKey, hqualified] using hfind
  rw [lookup?, lookup?, hsame, hnamed, hcomplete]
  split
  · rfl
  · cases firstComplete? xs qualified <;> rfl

end Lookup

/-! ### Runs -/

section Runs

variable {xs ys : List Class} (φ : Fin xs.length ≃ Fin ys.length) {R : Class → Class → Prop}

/-- **Corresponding classes start the same runs**, when their bases correspond along with the
positions of the lists. -/
theorem hasRun_congr (hpos : ∀ i, R (xs.get i) (ys.get (φ i)))
    (hbase : ∀ {c d}, R c d → ∀ i, IsBase ys d (φ i) ↔ IsBase xs c i)
    {c d : Class} (h : R c d) (n : Nat) : HasRun ys d n ↔ HasRun xs c n := by
  induction n generalizing c d with
  | zero => exact iff_of_true (hasRun_zero d) (hasRun_zero c)
  | succ n ih =>
    rw [hasRun_succ, hasRun_succ]
    refine (φ.exists_congr fun i => ?_).symm
    rw [hbase h i, ih (hpos i)]

end Runs

/-! ### Failures -/

section Failures

variable {xs ys : List Class} {limit : Nat}

theorem edgesOfAll_error_congr {cs ds : List Class}
    (h : List.Forall₂ (fun c d => d.fullName = c.fullName ∧
      (HasRun ys d (limit + 1) ↔ HasRun xs c (limit + 1))) cs ds) {e : Error} :
    edgesOfAll ys limit ds = .error e ↔ edgesOfAll xs limit cs = .error e := by
  induction h with
  | nil => simp [edgesOfAll]
  | @cons c d cs ds hcd _ ih =>
    obtain ⟨hname, hrun⟩ := hcd
    rw [← edgesWithin_eq_none_iff, ← edgesWithin_eq_none_iff] at hrun
    rw [edgesOfAll_cons, edgesOfAll_cons, hname]
    cases hc : edgesWithin xs limit c with
    | none =>
      rw [hc] at hrun
      -- the two failures are equal in two types
      simp [hrun.mpr rfl]
    | some above =>
      obtain ⟨above', hd⟩ := Option.ne_none_iff_exists'.mp fun hnone =>
        Option.some_ne_none above (hc.symm.trans (hrun.mp hnone))
      rw [hd]
      exact map_eq_error_iff.trans (ih.trans map_eq_error_iff.symm)

/-- **Corresponding lists fail alike**: when the classes at each position have the same name and
start the same runs, resolving gives the same failure. -/
theorem resolve_error_congr
    (h : List.Forall₂ (fun c d => d.fullName = c.fullName ∧
      (HasRun ys d (limit + 1) ↔ HasRun xs c (limit + 1))) xs ys) {e : Error} :
    resolve limit ys = .error e ↔ resolve limit xs = .error e := by
  rw [resolve_eq_error_iff_edgesOfAll, resolve_eq_error_iff_edgesOfAll]
  exact edgesOfAll_error_congr h

end Failures

/-! ### Edges -/

/-- What the edges above a class see of it: its full name, its declared bases made bare, and
whether it is complete. -/
def edgeKey (c : Class) : String × List String × Bool :=
  (c.fullName, c.info.bases.map fun base => Name.bare base.declared, c.info.isComplete)

theorem edgeKey_eq_iff {c d : Class} :
    edgeKey c = edgeKey d ↔ c.fullName = d.fullName ∧
      c.info.bases.map (fun base => Name.bare base.declared) =
        d.info.bases.map (fun base => Name.bare base.declared) ∧
      c.info.isComplete = d.info.isComplete := by
  rw [edgeKey, edgeKey, Prod.mk.injEq, Prod.mk.injEq]

section Edges

variable {xs ys : List Class} (f : Fin xs.length → Fin ys.length)

/-- The edge with the positions on its route changed. -/
def Edge.map : Edge xs → Edge ys
  | .reached route => .reached (route.map f)
  | .missing base => .missing base

@[simp] theorem Edge.map_reached (route : List (Fin xs.length)) :
    (Edge.reached route).map f = .reached (route.map f) := rfl

@[simp] theorem Edge.map_missing (base : UnresolvedBase) :
    (Edge.missing base : Edge xs).map f = .missing base := rfl

theorem Edge.map_via (i : Fin xs.length) (edge : Edge xs) :
    (edge.via i).map f = (edge.map f).via (f i) := by
  cases edge <;> rfl

theorem filterMap_missing?_map (found : List (Edge xs)) :
    (found.map (Edge.map f)).filterMap Edge.missing? = found.filterMap Edge.missing? := by
  rw [List.filterMap_map]
  refine List.filterMap_congr fun edge _ => ?_
  cases edge <;> rfl

variable {f} {above : Fin xs.length → Option (List (Edge xs))}
  {above' : Fin ys.length → Option (List (Edge ys))}
  (hlookup : ∀ {qualified qualified'} fromName, Name.bare qualified = Name.bare qualified' →
    lookup? ys qualified' fromName = (lookup? xs qualified fromName).map f)

include hlookup

theorem edgesOfBase_congr (habove : ∀ i, above' (f i) = (above i).map (List.map (Edge.map f)))
    (fromName : String) {base base' : Ast.BaseClause}
    (h : Name.bare base.declared = Name.bare base'.declared) :
    edgesOfBase ys above' fromName base' =
      (edgesOfBase xs above fromName base).map (List.map (Edge.map f)) := by
  rw [edgesOfBase, edgesOfBase, hlookup fromName h]
  cases lookup? xs base.declared fromName with
  | none => simp [unresolved, h]
  | some i =>
    dsimp only [Option.map_some]
    rw [habove i]
    cases above i with
    | none => rfl
    | some found => simp [Function.comp_def, Edge.map_via]

theorem edgesOfBases_congr (habove : ∀ i, above' (f i) = (above i).map (List.map (Edge.map f)))
    (fromName : String) {bases bases' : List Ast.BaseClause}
    (h : bases.map (fun base => Name.bare base.declared) =
      bases'.map fun base => Name.bare base.declared) :
    edgesOfBases ys above' fromName bases' =
      (edgesOfBases xs above fromName bases).map (List.map (Edge.map f)) := by
  induction bases generalizing bases' with
  | nil =>
    obtain rfl := List.map_eq_nil_iff.mp h.symm
    rfl
  | cons base bases ih =>
    obtain ⟨base', bases', rfl, hbase, hbases⟩ := List.map_eq_cons_iff.mp h.symm
    rw [edgesOfBases, edgesOfBases, edgesOfBase_congr hlookup habove fromName hbase.symm,
      ih hbases.symm]
    cases edgesOfBase xs above fromName base <;> cases edgesOfBases xs above fromName bases <;>
      simp

/-- **Corresponding classes have corresponding edges** above them, when lookups correspond and the
edges see the same of the classes at corresponding positions. -/
theorem edgesWithin_congr (hpos : ∀ i, edgeKey (xs.get i) = edgeKey (ys.get (f i))) {c d : Class}
    (h : edgeKey c = edgeKey d) (limit : Nat) :
    edgesWithin ys limit d = (edgesWithin xs limit c).map (List.map (Edge.map f)) := by
  induction limit generalizing c d with
  | zero =>
    obtain ⟨hname, hbases, -⟩ := edgeKey_eq_iff.mp h
    rw [edgesWithin, edgesWithin, ← hname]
    exact edgesOfBases_congr hlookup (fun _ => rfl) c.fullName hbases
  | succ limit ih =>
    obtain ⟨hname, hbases, -⟩ := edgeKey_eq_iff.mp h
    rw [edgesWithin, edgesWithin, ← hname]
    exact edgesOfBases_congr hlookup (fun i => ih (hpos i)) c.fullName hbases

end Edges

/-! ### Lists that the edges see the same -/

/-- Lists have the same values exactly when they have them position by position. -/
theorem map_eq_map_iff_forall₂ {α β : Type} {f : α → β} {as bs : List α} :
    as.map f = bs.map f ↔ List.Forall₂ (fun a b => f a = f b) as bs := by
  rw [← List.forall₂_map_right_iff, ← List.forall₂_map_left_iff, List.forall₂_eq_eq_eq]

/-- Related lists have the same values of what is the same for related elements. -/
theorem map_eq_map_of_forall₂ {α β : Type} {R : α → α → Prop} {f : α → β}
    (hf : ∀ a b, R a b → f a = f b) {as bs : List α} (h : List.Forall₂ R as bs) :
    as.map f = bs.map f :=
  map_eq_map_iff_forall₂.mpr (h.imp hf)

theorem get_of_forall₂ {α : Type} {R : α → α → Prop} {as bs : List α} (h : List.Forall₂ R as bs)
    (hlen : as.length = bs.length) (i : Fin as.length) : R (as.get i) (bs.get (i.cast hlen)) :=
  (List.forall₂_iff_get.mp h).2 i.val i.isLt (i.cast hlen).isLt

section Keys

variable {xs ys : List Class} {limit : Nat} (hkeys : xs.map edgeKey = ys.map edgeKey)

include hkeys

theorem lookupKeys_of_edgeKeys : xs.map lookupKey = ys.map lookupKey := by
  have h := congrArg (List.map fun key => (Name.bare key.1, key.2.2)) hkeys
  rwa [List.map_map, List.map_map] at h

theorem length_eq_of_edgeKeys : xs.length = ys.length :=
  length_eq_of_keys (lookupKeys_of_edgeKeys hkeys)

theorem edgeKey_get (i : Fin xs.length) :
    edgeKey (xs.get i) = edgeKey (ys.get (i.cast (length_eq_of_edgeKeys hkeys))) := by
  have hi : i.val < (xs.map edgeKey).length := by simp
  simpa using List.getElem_of_eq hkeys hi

/-- Classes that the edges see the same have edges along the same positions. -/
theorem edgesWithin_of_keys {c d : Class} (h : edgeKey c = edgeKey d) (limit : Nat) :
    edgesWithin ys limit d = (edgesWithin xs limit c).map
      (List.map (Edge.map (Fin.cast (length_eq_of_edgeKeys hkeys)))) :=
  edgesWithin_congr
    (fun _ hqualified => lookup?_congr (lookupKeys_of_edgeKeys hkeys) hqualified rfl)
    (edgeKey_get hkeys) h limit

/-- **Lists that the edges see the same fail alike.** -/
theorem resolve_error_of_keys {e : Error} :
    resolve limit ys = .error e ↔ resolve limit xs = .error e := by
  refine resolve_error_congr (List.forall₂_iff_get.mpr ⟨length_eq_of_edgeKeys hkeys, ?_⟩)
  intro i hi hi'
  have hkey := edgeKey_get hkeys ⟨i, hi⟩
  refine ⟨(edgeKey_eq_iff.mp hkey).1.symm, ?_⟩
  rw [← edgesWithin_eq_none_iff, ← edgesWithin_eq_none_iff]
  exact edgesWithin_of_keys hkeys hkey limit ▸ Option.map_eq_none_iff

/-- **Lists that the edges see the same are resolved along the same routes**, and miss the same
bases. -/
theorem resolve_ok_of_keys {above : Fin xs.length → List (Edge xs)}
    (habove : ∀ i, edgesWithin xs limit (xs.get i) = some (above i)) :
    resolve limit ys = .ok
      { classes := List.ofFn fun i : Fin xs.length =>
          inherit ys (ys.get (i.cast (length_eq_of_edgeKeys hkeys)))
            ((above i).map (Edge.map (Fin.cast (length_eq_of_edgeKeys hkeys))))
        unresolved := ((List.ofFn above).flatten.filterMap Edge.missing?).eraseDups } := by
  have hlen := length_eq_of_edgeKeys hkeys
  refine resolve_eq_ok_iff.mpr
    ⟨fun j => (above (j.cast hlen.symm)).map (Edge.map (Fin.cast hlen)), fun j => ?_, ?_⟩
  · have hkey := edgeKey_get hkeys (j.cast hlen.symm)
    rw [Fin.cast_cast, Fin.cast_eq_self] at hkey
    rw [edgesWithin_of_keys hkeys hkey, habove]
    rfl
  · congr 1
    · exact List.ext_getElem (by simp [hlen]) (by simp)
    · rw [← filterMap_missing?_map (Fin.cast hlen) (List.ofFn above).flatten, List.map_flatten,
        List.map_ofFn]
      congr 3
      exact List.ext_getElem (by simp [hlen]) (by simp)

/-- **Lists that the edges see the same come to related outcomes**, when related classes come of
inheriting along the same positions: resolving fails with the same failure, or the classes are
related and the same bases are missing. -/
theorem resolve_of_keys (limit : Nat) (R : Class → Class → Prop)
    (hinherit : ∀ (i : Fin xs.length) (found : List (Edge xs)),
      R (inherit xs (xs.get i) found)
        (inherit ys (ys.get (i.cast (length_eq_of_edgeKeys hkeys)))
          (found.map (Edge.map (Fin.cast (length_eq_of_edgeKeys hkeys)))))) :
    (∃ e, resolve limit xs = .error e ∧ resolve limit ys = .error e) ∨
      ∃ r r', resolve limit xs = .ok r ∧ resolve limit ys = .ok r' ∧
        List.Forall₂ R r.classes r'.classes ∧ r'.unresolved = r.unresolved := by
  cases hr : resolve limit xs with
  | error e => exact Or.inl ⟨e, rfl, (resolve_error_of_keys hkeys).mpr hr⟩
  | ok r =>
    obtain ⟨above, habove, rfl⟩ := resolve_eq_ok_iff.mp hr
    refine Or.inr ⟨_, _, rfl, resolve_ok_of_keys hkeys habove, ?_, rfl⟩
    refine List.forall₂_iff_get.mpr ⟨by rw [List.length_ofFn, List.length_ofFn], ?_⟩
    intro i hi hi'
    rw [List.get_ofFn, List.get_ofFn]
    exact hinherit _ _

end Keys

/-! ### Copies -/

/-- **Along corresponding edges the chains have corresponding links**, when the classes at
corresponding positions are declared alike. -/
theorem chains_map {xs ys : List Class} {f : Fin xs.length → Fin ys.length}
    {link : Declared → Declared}
    (hdeclared : ∀ i, (ys.get (f i)).declared = link (xs.get i).declared)
    (found : List (Edge xs)) :
    chains ys (found.map (Edge.map f)) = (chains xs found).map (List.map link) := by
  rw [chains, chains, List.filterMap_map, List.map_filterMap]
  refine List.filterMap_congr fun edge _ => ?_
  cases edge with
  | missing base => rfl
  | reached route => simpa [chainOf] using fun i _ => hdeclared i

section Copies

variable {μ : Type} {members : Declared → List μ} {member : μ → μ} {link : Declared → Declared}
  (hmembers : ∀ ancestor, members (link ancestor) = (members ancestor).map member)

include hmembers

/-- Along a chain of changed links the changed members are copied. -/
theorem copies_map (chain : List Declared) :
    copies members (chain.map link) = (copies members chain).map (Entry.map member link) := by
  rw [copies, copies, List.getLast?_map]
  cases chain.getLast? with
  | none => rfl
  | some ancestor => simp [hmembers, Entry.map]

/-- **Along corresponding edges corresponding members are inherited**, when the classes at
corresponding positions are declared alike. -/
theorem flatMap_copies_map {xs ys : List Class} {f : Fin xs.length → Fin ys.length}
    (hdeclared : ∀ i, (ys.get (f i)).declared = link (xs.get i).declared)
    (found : List (Edge xs)) :
    (chains ys (found.map (Edge.map f))).flatMap (copies members) =
      ((chains xs found).flatMap (copies members)).map (Entry.map member link) := by
  rw [chains_map hdeclared, List.flatMap_map, List.map_flatMap]
  exact List.flatMap_congr fun chain _ => copies_map hmembers chain

end Copies

end Inheritance

end ClassAtlas
