import ClassAtlas.Inheritance.Edge
import ClassAtlas.Proofs.Inheritance.Ancestry
/-!
# The edges above a class, without the limit

The limit decides whether there is a list of edges above a class, and has no say in what is in
it. There is none exactly when the class starts a run of more bases than the limit allows
(`ClassAtlas.Inheritance.edgesWithin_eq_none_iff`), and a list that a limit allows is the list
for every greater one (`ClassAtlas.Inheritance.edgesWithin_mono`).

So the list can be read without any limit: it unfolds the bases of the class one after the other,
each followed by the edges above the class that it stands for
(`ClassAtlas.Inheritance.edgesOver`, `ClassAtlas.Inheritance.edgesWithin_fixed`). What holds of
every such unfolding when it holds of the lists that go into it holds of the edges above a class
(`ClassAtlas.Inheritance.edges_induction`); nothing later inducts on the limit again.
-/

namespace ClassAtlas

namespace Inheritance

variable {classes : List Class}

/-! ### One unfolding -/

/-- The edges of one base that a class with the given name declares, where `above` has the edges
above each position. -/
def edgesFrom (classes : List Class) (above : Fin classes.length → List (Edge classes))
    (fromName : String) (base : Ast.BaseClause) : List (Edge classes) :=
  match lookup? classes base.declared fromName with
  | none => [.missing (unresolved base.declared fromName)]
  | some i => .reached [i] :: (above i).map (Edge.via i)

/-- **The unfolding of a class**: the edges of its bases, one base after the other. -/
def edgesOver (classes : List Class) (above : Fin classes.length → List (Edge classes))
    (c : Class) : List (Edge classes) :=
  c.info.bases.flatMap (edgesFrom classes above c.fullName)

theorem edgesFrom_of_none {above : Fin classes.length → List (Edge classes)} {fromName : String}
    {base : Ast.BaseClause} (h : lookup? classes base.declared fromName = none) :
    edgesFrom classes above fromName base = [.missing (unresolved base.declared fromName)] := by
  rw [edgesFrom, h]

theorem edgesFrom_of_some {above : Fin classes.length → List (Edge classes)} {fromName : String}
    {base : Ast.BaseClause} {i : Fin classes.length}
    (h : lookup? classes base.declared fromName = some i) :
    edgesFrom classes above fromName base = .reached [i] :: (above i).map (Edge.via i) := by
  rw [edgesFrom, h]

/-- An unfolding looks only at the edges above the bases of the class. -/
theorem edgesOver_congr {above above' : Fin classes.length → List (Edge classes)} {c : Class}
    (h : ∀ i, IsBase classes c i → above i = above' i) :
    edgesOver classes above c = edgesOver classes above' c := by
  refine List.flatMap_congr fun base hbase => ?_
  cases hi : lookup? classes base.declared c.fullName with
  | none => rw [edgesFrom_of_none hi, edgesFrom_of_none hi]
  | some i => rw [edgesFrom_of_some hi, edgesFrom_of_some hi, h i ⟨base, hbase, hi⟩]

/-- An unfolding reaches the bases of the class, and what is reached above them. -/
theorem reached_mem_edgesOver {above : Fin classes.length → List (Edge classes)} {c : Class}
    {route : List (Fin classes.length)} :
    .reached route ∈ edgesOver classes above c ↔
      ∃ i rest, route = i :: rest ∧ IsBase classes c i ∧
        (rest = [] ∨ .reached rest ∈ above i) := by
  rw [edgesOver, List.mem_flatMap]
  constructor
  · rintro ⟨base, hbase, hmem⟩
    cases hi : lookup? classes base.declared c.fullName with
    | none =>
      rw [edgesFrom_of_none hi] at hmem
      simp at hmem
    | some i =>
      rw [edgesFrom_of_some hi] at hmem
      rcases List.mem_cons.mp hmem with hfirst | hmap
      · exact ⟨i, [], Edge.reached.inj hfirst, ⟨base, hbase, hi⟩, Or.inl rfl⟩
      · obtain ⟨edge, hedge, hvia⟩ := List.mem_map.mp hmap
        cases edge with
        | missing base' => cases hvia
        | reached rest =>
          exact ⟨i, rest, (Edge.reached.inj hvia).symm, ⟨base, hbase, hi⟩, Or.inr hedge⟩
  · rintro ⟨i, rest, rfl, ⟨base, hbase, hi⟩, hrest⟩
    refine ⟨base, hbase, ?_⟩
    rw [edgesFrom_of_some hi]
    rcases hrest with rfl | hrest
    · exact List.mem_cons_self
    · exact List.mem_cons_of_mem _ (List.mem_map.mpr ⟨.reached rest, hrest, rfl⟩)

/-! ### The program's recursion -/

section Bases

variable {above : Fin classes.length → Option (List (Edge classes))} {fromName : String}

theorem edgesOfBase_eq_some_iff {base : Ast.BaseClause} {found : List (Edge classes)} :
    edgesOfBase classes above fromName base = some found ↔
      (∀ i, lookup? classes base.declared fromName = some i → (above i).isSome) ∧
        found = edgesFrom classes (fun i => (above i).getD []) fromName base := by
  rw [edgesOfBase, edgesFrom, eq_comm (a := found)]
  cases lookup? classes base.declared fromName with
  | none => simp
  | some i => cases h : above i <;> simp [h]

theorem edgesOfBases_eq_some_iff {bases : List Ast.BaseClause} {found : List (Edge classes)} :
    edgesOfBases classes above fromName bases = some found ↔
      (∀ base ∈ bases, ∀ i, lookup? classes base.declared fromName = some i →
        (above i).isSome) ∧
        found = bases.flatMap (edgesFrom classes (fun i => (above i).getD []) fromName) := by
  induction bases generalizing found with
  | nil =>
    rw [edgesOfBases, eq_comm (a := found)]
    simp
  | cons base bases ih =>
    have hcons : edgesOfBases classes above fromName (base :: bases) = some found ↔
        ∃ first, edgesOfBase classes above fromName base = some first ∧
          ∃ rest, edgesOfBases classes above fromName bases = some rest ∧
            first ++ rest = found := by
      simp [edgesOfBases, Option.bind_eq_some_iff]
    rw [hcons, List.forall_mem_cons, List.flatMap_cons]
    constructor
    · rintro ⟨first, hfirst, rest, hrest, rfl⟩
      obtain ⟨hbase, rfl⟩ := edgesOfBase_eq_some_iff.mp hfirst
      obtain ⟨hbases, rfl⟩ := ih.mp hrest
      exact ⟨⟨hbase, hbases⟩, rfl⟩
    · rintro ⟨⟨hbase, hbases⟩, rfl⟩
      exact ⟨_, edgesOfBase_eq_some_iff.mpr ⟨hbase, rfl⟩, _, ih.mpr ⟨hbases, rfl⟩, rfl⟩

/-- The edges of the bases of a class are its unfolding, and there are such edges when there are
some above each of its bases. -/
theorem edgesOfBases_class {c : Class} {found : List (Edge classes)} :
    edgesOfBases classes above c.fullName c.info.bases = some found ↔
      (∀ i, IsBase classes c i → (above i).isSome) ∧
        found = edgesOver classes (fun i => (above i).getD []) c := by
  rw [edgesOfBases_eq_some_iff, edgesOver]
  refine and_congr_left fun _ => ⟨fun h i hi => ?_, fun h base hbase i hi => ?_⟩
  · obtain ⟨base, hbase, hi⟩ := hi
    exact h base hbase i hi
  · exact h i ⟨base, hbase, hi⟩

end Bases

/-- The edges above each position, as far as they are within the limit. -/
def edgesAbove (classes : List Class) (limit : Nat) (i : Fin classes.length) :
    List (Edge classes) :=
  (edgesWithin classes limit (classes.get i)).getD []

/-- With no room for a base, there are edges when no base of the class stands for anything. -/
theorem edgesWithin_zero {c : Class} {found : List (Edge classes)} :
    edgesWithin classes 0 c = some found ↔
      (∀ i, ¬IsBase classes c i) ∧ found = edgesOver classes (fun _ => []) c := by
  rw [edgesWithin, edgesOfBases_class]
  simp

/-- With room for one base more, the edges above the bases have the room that is left. -/
theorem edgesWithin_succ {limit : Nat} {c : Class} {found : List (Edge classes)} :
    edgesWithin classes (limit + 1) c = some found ↔
      (∀ i, IsBase classes c i → (edgesWithin classes limit (classes.get i)).isSome) ∧
        found = edgesOver classes (edgesAbove classes limit) c := by
  rw [edgesWithin, edgesOfBases_class]
  exact Iff.rfl

/-! ### What the limit decides -/

/-- **There are edges within a limit** exactly when the class starts no run of one base more. -/
theorem isSome_edgesWithin_iff {limit : Nat} {c : Class} :
    (edgesWithin classes limit c).isSome ↔ ¬HasRun classes c (limit + 1) := by
  rw [Option.isSome_iff_exists, hasRun_succ]
  induction limit generalizing c with
  | zero => simp [edgesWithin_zero, hasRun_zero]
  | succ limit ih =>
    simp only [edgesWithin_succ, exists_and_left, exists_eq, and_true, not_exists, not_and]
    refine forall_congr' fun i => imp_congr_right fun _ => ?_
    rw [Option.isSome_iff_exists, ih, hasRun_succ]

/-- The limit is exceeded exactly when the class starts a run of one base more. -/
theorem edgesWithin_eq_none_iff {limit : Nat} {c : Class} :
    edgesWithin classes limit c = none ↔ HasRun classes c (limit + 1) := by
  rw [← Option.not_isSome_iff_eq_none, isSome_edgesWithin_iff, not_not]

/-- One base more of room changes no list of edges. -/
theorem edgesWithin_succ_of_some {limit : Nat} {c : Class} {found : List (Edge classes)}
    (h : edgesWithin classes limit c = some found) :
    edgesWithin classes (limit + 1) c = some found := by
  induction limit generalizing c found with
  | zero =>
    obtain ⟨hnone, rfl⟩ := edgesWithin_zero.mp h
    exact edgesWithin_succ.mpr ⟨fun i hi => absurd hi (hnone i),
      edgesOver_congr fun i hi => absurd hi (hnone i)⟩
  | succ limit ih =>
    obtain ⟨hsome, rfl⟩ := edgesWithin_succ.mp h
    -- the lists above the bases do not change, so their unfolding does not
    have hsame : ∀ i, IsBase classes c i → edgesWithin classes (limit + 1) (classes.get i) =
        edgesWithin classes limit (classes.get i) := by
      intro i hi
      obtain ⟨above, habove⟩ := Option.isSome_iff_exists.mp (hsome i hi)
      rw [habove, ih habove]
    exact edgesWithin_succ.mpr ⟨fun i hi => hsame i hi ▸ hsome i hi,
      edgesOver_congr fun i hi => by rw [edgesAbove, edgesAbove, hsame i hi]⟩

/-- **A greater limit changes no list of edges.** -/
theorem edgesWithin_mono {limit limit' : Nat} (hle : limit ≤ limit') {c : Class}
    {found : List (Edge classes)} (h : edgesWithin classes limit c = some found) :
    edgesWithin classes limit' c = some found := by
  induction limit', hle using Nat.le_induction with
  | base => exact h
  | succ limit' _ ih => exact edgesWithin_succ_of_some ih

/-! ### What the limit does not decide -/

/-- **The edges above a class are an unfolding of themselves**: those above its bases are found
within the same limit, and its own edges unfold them. -/
theorem edgesWithin_fixed {limit : Nat} {c : Class} {found : List (Edge classes)}
    (h : edgesWithin classes limit c = some found) :
    (∀ i, IsBase classes c i → (edgesWithin classes limit (classes.get i)).isSome) ∧
      found = edgesOver classes (edgesAbove classes limit) c :=
  edgesWithin_succ.mp (edgesWithin_succ_of_some h)

/-- **Induction along the bases**: what an unfolding has when the lists that go into it have it,
the edges above a class have. -/
theorem edges_induction {P : Class → List (Edge classes) → Prop}
    (hunfold : ∀ c above, (∀ i, IsBase classes c i → P (classes.get i) (above i)) →
      P c (edgesOver classes above c))
    {limit : Nat} {c : Class} {found : List (Edge classes)}
    (h : edgesWithin classes limit c = some found) : P c found := by
  induction limit generalizing c found with
  | zero =>
    -- no base stands for anything, so nothing goes into the unfolding
    obtain ⟨hnone, rfl⟩ := edgesWithin_zero.mp h
    exact hunfold c _ fun i hi => absurd hi (hnone i)
  | succ limit ih =>
    obtain ⟨hsome, rfl⟩ := edgesWithin_succ.mp h
    refine hunfold c _ fun i hi => ?_
    obtain ⟨above, habove⟩ := Option.isSome_iff_exists.mp (hsome i hi)
    rw [edgesAbove, habove]
    exact ih habove

/-- **A route leads along a run of bases**, and is not empty. -/
theorem isRun_of_reached_mem {limit : Nat} {c : Class} {found : List (Edge classes)}
    (h : edgesWithin classes limit c = some found) {route : List (Fin classes.length)}
    (hmem : .reached route ∈ found) : IsRun classes c route ∧ route ≠ [] := by
  refine edges_induction (P := fun c found => ∀ route, .reached route ∈ found →
    IsRun classes c route ∧ route ≠ []) (fun c above habove route hmem => ?_) h route hmem
  obtain ⟨i, rest, rfl, hi, rfl | hrest⟩ := reached_mem_edgesOver.mp hmem
  · exact ⟨⟨hi, trivial⟩, List.cons_ne_nil _ _⟩
  · exact ⟨⟨hi, (habove i hi rest hrest).1⟩, List.cons_ne_nil _ _⟩

/-- **No route is longer than the limit.** -/
theorem length_le_of_reached_mem {limit : Nat} {c : Class} {found : List (Edge classes)}
    (h : edgesWithin classes limit c = some found) {route : List (Fin classes.length)}
    (hmem : .reached route ∈ found) : route.length ≤ limit := by
  by_contra hlong
  have hrun : IsRun classes c (route.take (limit + 1)) := (isRun_of_reached_mem h hmem).1.take _
  have hdeep : HasRun classes c (limit + 1) :=
    ⟨route.take (limit + 1), hrun, List.length_take_of_le (by omega)⟩
  rw [← edgesWithin_eq_none_iff, h] at hdeep
  cases hdeep

end Inheritance

end ClassAtlas
