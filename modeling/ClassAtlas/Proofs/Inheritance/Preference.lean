import ClassAtlas.Proofs.Inheritance.Correspondence
/-!
# The class that a lookup prefers

Several classes of a list may have the name that is looked for. A lookup goes through the list
twice, first for a complete one and then for any, and so takes the best in an order of the
positions: a complete class is better than a mere declaration, and otherwise the earlier one is
(`ClassAtlas.Inheritance.Preferred`). That the position found is the best of those with the name
is all there is to say about it (`ClassAtlas.Inheritance.lookup?_eq_some_iff`), and it is said
without going through the list.

So a lookup comes to the same class in two lists when the classes of the one stand in the other
with those of one name in the same order, and what else stands there is never the best
(`ClassAtlas.Inheritance.KeepsPreference`). The classes then have the same edges above them, and
inherit the same (`ClassAtlas.Inheritance.KeepsPreference.edgesWithin_eq`,
`ClassAtlas.Inheritance.KeepsPreference.inherit_eq`).
-/

namespace ClassAtlas

namespace Inheritance

/-! ### One list -/

section List

variable {classes : List Class} {qualified fromName : String}

/-- **A position is preferred to another one** when its class is complete and the other is not, or
both or none are and it is not the later one. -/
def Preferred (classes : List Class) (i j : Fin classes.length) : Prop :=
  ((classes.get j).info.isComplete = true → (classes.get i).info.isComplete = true) ∧
    ((classes.get j).info.isComplete = (classes.get i).info.isComplete → i ≤ j)

theorem isNamed_iff {c : Class} :
    c.isNamed qualified = true ↔ Name.bare c.fullName = Name.bare qualified :=
  Name.same_iff

/-- The first complete class with a name is preferred to all with the name. -/
theorem firstComplete?_eq_some_iff {i : Fin classes.length} :
    firstComplete? classes qualified = some i ↔
      (classes.get i).isNamed qualified = true ∧ (classes.get i).info.isComplete = true ∧
        ∀ j, (classes.get j).isNamed qualified = true → Preferred classes i j := by
  rw [firstComplete?, List.findFinIdx?_eq_some_iff, Bool.and_eq_true_iff]
  constructor
  · rintro ⟨⟨hnamed, hcomplete⟩, hfirst⟩
    refine ⟨hnamed, hcomplete, fun j hj => ⟨fun _ => hcomplete, fun hsame => ?_⟩⟩
    have hcomplete' : (classes.get j).info.isComplete = true := hsame.trans hcomplete
    exact not_lt.mp fun hlt => hfirst j hlt (Bool.and_eq_true_iff.mpr ⟨hj, hcomplete'⟩)
  · rintro ⟨hnamed, hcomplete, hbest⟩
    refine ⟨⟨hnamed, hcomplete⟩, fun j hlt hj => ?_⟩
    obtain ⟨hnamed', hcomplete'⟩ := Bool.and_eq_true_iff.mp hj
    exact absurd ((hbest j hnamed').2 (hcomplete'.trans hcomplete.symm)) (not_le.mpr hlt)

/-- Where no class with a name is complete, the first of them is preferred. -/
theorem firstNamed?_eq_some_iff {i : Fin classes.length}
    (hmere : firstComplete? classes qualified = none) :
    firstNamed? classes qualified = some i ↔
      (classes.get i).isNamed qualified = true ∧
        ∀ j, (classes.get j).isNamed qualified = true → Preferred classes i j := by
  have hincomplete : ∀ j : Fin classes.length, (classes.get j).isNamed qualified = true →
      (classes.get j).info.isComplete = false := by
    intro j hj
    rw [firstComplete?, List.findFinIdx?_eq_none_iff] at hmere
    have hnot := hmere (classes.get j) (List.get_mem classes j)
    rw [Bool.and_eq_true_iff] at hnot
    exact Bool.eq_false_iff.mpr fun hcomplete => hnot ⟨hj, hcomplete⟩
  rw [firstNamed?, List.findFinIdx?_eq_some_iff]
  constructor
  · rintro ⟨hnamed, hfirst⟩
    refine ⟨hnamed, fun j hj => ⟨fun hcomplete => ?_, fun _ => ?_⟩⟩
    · rw [hincomplete j hj] at hcomplete
      cases hcomplete
    · exact not_lt.mp fun hlt => hfirst j hlt hj
  · rintro ⟨hnamed, hbest⟩
    refine ⟨hnamed, fun j hlt hj => ?_⟩
    have hsame : (classes.get j).info.isComplete = (classes.get i).info.isComplete := by
      rw [hincomplete j hj, hincomplete i hnamed]
    exact absurd ((hbest j hj).2 hsame) (not_le.mpr hlt)

/-- **A base stands for the preferred class** among those with its name, unless the name is that of
the class which declares it. -/
theorem lookup?_eq_some_iff {i : Fin classes.length} :
    lookup? classes qualified fromName = some i ↔
      ¬Name.same qualified fromName = true ∧ (classes.get i).isNamed qualified = true ∧
        ∀ j, (classes.get j).isNamed qualified = true → Preferred classes i j := by
  rw [lookup?]
  by_cases hsame : Name.same qualified fromName = true
  · simp [hsame]
  · rw [if_neg hsame, and_iff_right hsame, Option.orElse_eq_orElse, Option.orElse_eq_or]
    cases hcomplete : firstComplete? classes qualified with
    | none => rw [Option.none_or, firstNamed?_eq_some_iff hcomplete]
    | some k =>
      obtain ⟨hnamed, hk, hbest⟩ := firstComplete?_eq_some_iff.mp hcomplete
      rw [Option.some_or, Option.some.injEq]
      constructor
      · rintro rfl
        exact ⟨hnamed, hbest⟩
      · rintro ⟨hnamed', hbest'⟩
        -- of two best positions each is preferred to the other
        have hi : (classes.get i).info.isComplete = true := (hbest' k hnamed).1 hk
        have halike : (classes.get i).info.isComplete = (classes.get k).info.isComplete :=
          hi.trans hk.symm
        exact le_antisymm ((hbest i hnamed').2 halike) ((hbest' k hnamed).2 halike.symm)

/-- A base stands for nothing when it has the name of the class that declares it, and when no class
has its name. -/
theorem lookup?_eq_none_iff :
    lookup? classes qualified fromName = none ↔
      Name.same qualified fromName = true ∨
        ∀ i : Fin classes.length, ¬(classes.get i).isNamed qualified = true := by
  rw [lookup?]
  by_cases hsame : Name.same qualified fromName = true
  · simp [hsame]
  · rw [if_neg hsame, or_iff_right hsame, Option.orElse_eq_orElse, Option.orElse_eq_or,
      Option.or_eq_none_iff, firstComplete?, firstNamed?, List.findFinIdx?_eq_none_iff,
      List.findFinIdx?_eq_none_iff]
    constructor
    · rintro ⟨-, hnone⟩ i
      exact hnone (classes.get i) (List.get_mem classes i)
    · intro hnone
      have hnot : ∀ c ∈ classes, ¬c.isNamed qualified = true := fun c hc => by
        obtain ⟨i, rfl⟩ := List.mem_iff_get.mp hc
        exact hnone i
      exact ⟨fun c hc hboth => hnot c hc (Bool.and_eq_true_iff.mp hboth).1, hnot⟩

end List

/-! ### One list within another -/

section Within

variable {xs ys : List Class} {f : Fin xs.length → Fin ys.length}

section Positions

variable (hget : ∀ i, ys.get (f i) = xs.get i)

include hget

/-- **A base stands for the same class in two lists**, where `f` has the positions of the classes of
the first list in the second: those of one name stand in the same order, and any other class with
the name of the base is a mere declaration of one that is complete. -/
theorem lookup?_eq_map
    (hle : ∀ i j, Name.same (xs.get i).fullName (xs.get j).fullName = true → i ≤ j → f i ≤ f j)
    {qualified qualified' : String} (fromName : String)
    (hqualified : Name.bare qualified = Name.bare qualified')
    (hsurplus : ∀ j, (ys.get j).isNamed qualified' = true → (∃ i, f i = j) ∨
      (ys.get j).info.isComplete = false ∧ ∃ i, (xs.get i).info.isComplete = true ∧
        (xs.get i).isNamed qualified = true) :
    lookup? ys qualified' fromName = (lookup? xs qualified fromName).map f := by
  have hsame : Name.same qualified' fromName = Name.same qualified fromName := by
    rw [Name.same, Name.same, hqualified]
  have hnamed : ∀ i, (ys.get (f i)).isNamed qualified' = (xs.get i).isNamed qualified := by
    intro i
    rw [hget, Class.isNamed, Class.isNamed, Name.same, Name.same, hqualified]
  cases hlookup : lookup? xs qualified fromName with
  | none =>
    rw [Option.map_none, lookup?_eq_none_iff, hsame]
    refine (lookup?_eq_none_iff.mp hlookup).imp_right fun hnone j hj => ?_
    obtain ⟨i, rfl⟩ | ⟨-, i, -, hi⟩ := hsurplus j hj
    · exact hnone i (hnamed i ▸ hj)
    · exact hnone i hi
  | some i =>
    obtain ⟨hdiffer, hi, hbest⟩ := lookup?_eq_some_iff.mp hlookup
    rw [Option.map_some, lookup?_eq_some_iff, hsame, hnamed]
    refine ⟨hdiffer, hi, fun j hj => ?_⟩
    obtain ⟨k, rfl⟩ | ⟨hmere, k, hk, hname⟩ := hsurplus j hj
    · have hname : (xs.get k).isNamed qualified = true := hnamed k ▸ hj
      obtain ⟨hcomplete, hle'⟩ := hbest k hname
      rw [Preferred, hget, hget]
      refine ⟨hcomplete, fun halike => hle i k ?_ (hle' halike)⟩
      rw [Name.same_iff, isNamed_iff.mp hi, isNamed_iff.mp hname]
    · have hcomplete : (xs.get i).info.isComplete = true := (hbest k hname).1 hk
      rw [Preferred, hget, hmere, hcomplete]
      exact ⟨fun _ => rfl, fun hfalse => absurd hfalse Bool.false_ne_true⟩

/-- A class inherits the same along the same edges in both lists. -/
theorem inherit_map (c : Class) (found : List (Edge xs)) :
    inherit ys c (found.map (Edge.map f)) = inherit xs c found := by
  have hchains : chains ys (found.map (Edge.map f)) = (chains xs found).map (List.map id) :=
    chains_map (fun i => congrArg Class.declared (hget i)) found
  rw [inherit, inherit, hchains, List.map_id_fun, List.map_id]

end Positions

/-- **The preferred classes of a list stay preferred in another one**, where `f` has the positions
of the classes of the first list in the second. -/
structure KeepsPreference (xs ys : List Class) (f : Fin xs.length → Fin ys.length) : Prop where
  /-- The classes are the same. -/
  get_eq : ∀ i, ys.get (f i) = xs.get i
  /-- Classes of one name stand in the same order. -/
  le_of_le : ∀ i j, Name.same (xs.get i).fullName (xs.get j).fullName = true → i ≤ j → f i ≤ f j
  /-- Any other class is a mere declaration of one that is complete. -/
  surplus : ∀ j, (∃ i, f i = j) ∨ (ys.get j).info.isComplete = false ∧
    ∃ i, (xs.get i).info.isComplete = true ∧
      Name.same (xs.get i).fullName (ys.get j).fullName = true

variable (h : KeepsPreference xs ys f)

include h

/-- **A base stands for the same class in both lists**, whatever its name is. -/
theorem KeepsPreference.lookup?_eq {qualified qualified' : String} (fromName : String)
    (hqualified : Name.bare qualified = Name.bare qualified') :
    lookup? ys qualified' fromName = (lookup? xs qualified fromName).map f := by
  refine lookup?_eq_map h.get_eq h.le_of_le fromName hqualified fun j hj => ?_
  refine (h.surplus j).imp_right ?_
  -- a declaration that is not in the first list leads to a complete class of that list
  rintro ⟨hmere, i, hcomplete, hi⟩
  refine ⟨hmere, i, hcomplete, ?_⟩
  rw [isNamed_iff, Name.same_iff.mp hi, isNamed_iff.mp hj, hqualified]

/-- **A class has the same edges above it in both lists.** -/
theorem KeepsPreference.edgesWithin_eq (limit : Nat) (c : Class) :
    edgesWithin ys limit c = (edgesWithin xs limit c).map (List.map (Edge.map f)) :=
  edgesWithin_congr (fun fromName hqualified => h.lookup?_eq fromName hqualified)
    (fun i => by rw [h.get_eq]) rfl limit

/-- Any classes have the same edges above them in both lists. -/
theorem KeepsPreference.edgesOfAll_eq (limit : Nat) (cs : List Class) :
    edgesOfAll ys limit cs =
      (edgesOfAll xs limit cs).map (List.map (List.map (Edge.map f))) := by
  induction cs with
  | nil => rfl
  | cons c cs ih =>
    rw [edgesOfAll_cons, edgesOfAll_cons, ih, h.edgesWithin_eq]
    cases edgesWithin xs limit c with
    | none => rfl
    | some above => cases edgesOfAll xs limit cs <;> rfl

/-- A class starts a run that is too long in both lists or in none. -/
theorem KeepsPreference.hasRun_iff {limit : Nat} {c : Class} :
    HasRun ys c (limit + 1) ↔ HasRun xs c (limit + 1) := by
  rw [← edgesWithin_eq_none_iff, ← edgesWithin_eq_none_iff, h.edgesWithin_eq,
    Option.map_eq_none_iff]

/-- **A class inherits the same along the edges in both lists.** -/
theorem KeepsPreference.inherit_eq (c : Class) (found : List (Edge xs)) :
    inherit ys c (found.map (Edge.map f)) = inherit xs c found :=
  inherit_map h.get_eq c found

end Within

end Inheritance

end ClassAtlas
