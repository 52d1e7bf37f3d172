import ClassAtlas.Proofs.Inheritance.Preference
/-!
# One more class in a list

A class may be put into a list at any place; `ClassAtlas.Inheritance.aroundInserted` has the places
of the others then. In general that changes what bases stand for, but a **forward declaration** is a
class that changes nothing. A compiler lists a class once for each of its declarations, and mere
declarations may stand before, between and behind the definitions. If a class is not complete,
declares no base and has the name of a complete class of the list, then no lookup prefers it, so
nothing is inherited from it, and no edge leads up from it, so no base is missing because of it.
Resolving the list with it gives what resolving the list without it gives, with the declaration
itself at its place, and the same failure if there is one
(`ClassAtlas.Inheritance.resolve_insertIdx_of_mere_declaration`).
-/

namespace ClassAtlas

namespace Inheritance

variable {classes : List Class} {limit p : Nat} {F : Class}

/-! ### Positions around a new class -/

/-- The position of a class of a list in the list with one more class. -/
def aroundInserted (classes : List Class) (p : Nat) (F : Class) (i : Fin classes.length) :
    Fin (classes.insertIdx p F).length where
  val := if i.val < p then i.val else i.val + 1
  isLt := by
    rw [List.length_insertIdx]
    have hi := i.isLt
    split <;> split <;> omega

theorem get_aroundInserted (i : Fin classes.length) :
    (classes.insertIdx p F).get (aroundInserted classes p F i) = classes.get i := by
  rw [List.get_eq_getElem, List.get_eq_getElem, aroundInserted]
  by_cases hi : i.val < p
  · simp only [if_pos hi]
    exact List.getElem_insertIdx_of_lt hi _
  · simp only [if_neg hi]
    rw [List.getElem_insertIdx_of_gt (by omega)]
    simp only [Nat.add_sub_cancel]

/-- The classes stay in order around the new one. -/
theorem aroundInserted_le {i j : Fin classes.length} (hle : i ≤ j) :
    aroundInserted classes p F i ≤ aroundInserted classes p F j := by
  have hval : i.val ≤ j.val := hle
  rw [Fin.le_def, aroundInserted, aroundInserted]
  simp only
  split <;> split <;> omega

/-- A position of the list with one more class is that of the new class or of one of the others. -/
theorem eq_aroundInserted_or_get_eq (j : Fin (classes.insertIdx p F).length) :
    (∃ i, aroundInserted classes p F i = j) ∨ (classes.insertIdx p F).get j = F := by
  have hlen : j.val < if p ≤ classes.length then classes.length + 1 else classes.length :=
    lt_of_lt_of_eq j.isLt List.length_insertIdx
  rcases lt_trichotomy j.val p with hlt | heq | hgt
  · have hj' : j.val < classes.length := by
      split at hlen <;> omega
    refine Or.inl ⟨⟨j.val, hj'⟩, Fin.ext ?_⟩
    rw [aroundInserted]
    exact if_pos hlt
  · refine Or.inr ?_
    rw [List.get_eq_getElem]
    simp only [heq]
    exact List.getElem_insertIdx_self _
  · have hj' : j.val - 1 < classes.length := by
      split at hlen <;> omega
    refine Or.inl ⟨⟨j.val - 1, hj'⟩, Fin.ext ?_⟩
    rw [aroundInserted]
    simp only
    rw [if_neg (by omega)]
    omega

/-- **A mere declaration of a complete class is never preferred.** -/
theorem keepsPreference_of_mere_declaration (hmere : F.info.isComplete = false)
    (hdefined : ∃ c ∈ classes, c.info.isComplete = true ∧ Name.same c.fullName F.fullName = true) :
    KeepsPreference classes (classes.insertIdx p F) (aroundInserted classes p F) where
  get_eq := get_aroundInserted
  le_of_le _ _ _ hle := aroundInserted_le hle
  surplus j := by
    refine (eq_aroundInserted_or_get_eq j).imp_right fun hF => ?_
    obtain ⟨c, hc, hcomplete, hname⟩ := hdefined
    obtain ⟨i, rfl⟩ := List.mem_iff_get.mp hc
    rw [hF]
    exact ⟨hmere, i, hcomplete, hname⟩

/-! ### All classes of the list -/

/-- Without bases there are no edges. -/
theorem edgesWithin_of_no_bases {c : Class} (hbases : c.info.bases = []) :
    edgesWithin classes limit c = some [] := by
  cases limit with
  | zero => rw [edgesWithin, hbases, edgesOfBases]
  | succ limit => rw [edgesWithin, hbases, edgesOfBases]

/-- One class without bases more adds an empty list of edges at its place. -/
theorem edgesOfAll_insertIdx (hbases : F.info.bases = []) (p : Nat) (cs : List Class) :
    edgesOfAll classes limit (cs.insertIdx p F) =
      (edgesOfAll classes limit cs).map fun found => found.insertIdx p [] := by
  induction cs generalizing p with
  | nil =>
    cases p with
    | zero =>
      rw [List.insertIdx_zero, edgesOfAll_cons, edgesWithin_of_no_bases hbases]
      rfl
    | succ p => rfl
  | cons c cs ih =>
    cases p with
    | zero =>
      rw [List.insertIdx_zero, edgesOfAll_cons, edgesWithin_of_no_bases hbases]
      rfl
    | succ p =>
      rw [List.insertIdx_succ_cons, edgesOfAll_cons, edgesOfAll_cons, ih]
      cases edgesWithin classes limit c with
      | none => rfl
      | some above => cases edgesOfAll classes limit cs <;> rfl

theorem zipWith_insertIdx {α β γ : Type} (f : α → β → γ) (a : α) (b : β) {as : List α}
    {bs : List β} (hlen : as.length = bs.length) (p : Nat) :
    List.zipWith f (as.insertIdx p a) (bs.insertIdx p b) =
      (List.zipWith f as bs).insertIdx p (f a b) := by
  induction p generalizing as bs with
  | zero => rfl
  | succ p ih =>
    cases as with
    | nil =>
      obtain rfl := List.length_eq_zero_iff.mp hlen.symm
      rfl
    | cons a' as =>
      obtain ⟨b', bs, rfl⟩ := List.exists_cons_of_length_eq_add_one hlen.symm
      rw [List.insertIdx_succ_cons, List.insertIdx_succ_cons, List.zipWith_cons_cons,
        List.zipWith_cons_cons, List.insertIdx_succ_cons, ih (Nat.succ.inj hlen)]

theorem flatten_insertIdx_nil {α : Type} (lists : List (List α)) (p : Nat) :
    (lists.insertIdx p []).flatten = lists.flatten := by
  induction lists generalizing p with
  | nil => cases p <;> rfl
  | cons list lists ih =>
    cases p with
    | zero => rfl
    | succ p => rw [List.insertIdx_succ_cons, List.flatten_cons, List.flatten_cons, ih]

/-! ### The outcome -/

/-- **A mere declaration of a complete class changes nothing but that it stands there itself.** When
a class that is not complete, declares no base and has the name of a complete class of the list is
put at some place of the list, every other class comes out as without it, and it comes out itself as
it was. The same bases are missing, in the same order, and where resolving fails it is with the same
failure. -/
theorem resolve_insertIdx_of_mere_declaration {classes : List Class} {F : Class}
    (hmere : F.info.isComplete = false) (hbases : F.info.bases = [])
    (hdefined : ∃ c ∈ classes, c.info.isComplete = true ∧ Name.same c.fullName F.fullName = true)
    (limit p : Nat) :
    resolve limit (classes.insertIdx p F) =
      (resolve limit classes).map fun r => { r with classes := r.classes.insertIdx p F } := by
  have hkeeps : KeepsPreference classes (classes.insertIdx p F) (aroundInserted classes p F) :=
    keepsPreference_of_mere_declaration hmere hdefined
  -- the edges of the list with `F` are those of the list without it, and none above `F`
  rw [resolve_eq_map, resolve_eq_map, edgesOfAll_insertIdx hbases, hkeeps.edgesOfAll_eq]
  cases hfound : edgesOfAll classes limit classes with
  | error e => rfl
  | ok found =>
    have hlen : classes.length =
        (found.map (List.map (Edge.map (aroundInserted classes p F)))).length := by
      rw [List.length_map, (edgesOfAll_eq_ok_iff.mp hfound).length_eq]
    have hself : inherit (classes.insertIdx p F) F [] = F := by
      simp [inherit, chains]
    simp only [Except.map]
    refine congrArg Except.ok (congrArg₂ Resolution.mk ?_ ?_)
    · rw [zipWith_insertIdx _ _ _ hlen, hself, List.zipWith_map_right]
      simp only [hkeeps.inherit_eq]
    · rw [flatten_insertIdx_nil, ← List.map_flatten, filterMap_missing?_map]

/-- The declaration stands before the definition and has a field of its own, which nobody
inherits. -/
theorem resolve_insertIdx_of_mere_declaration_first :
    let classes := [(sample "A" []).addField ⟨⟨"a", some "int"⟩, none⟩, sample "B" ["::A", "Ghost"]]
    let F := (Class.new "::A" "::A" {}).addField ⟨⟨"stray", none⟩, none⟩
    F.info.isComplete = false ∧ F.info.bases = [] ∧
    (∃ c ∈ classes, c.info.isComplete = true ∧ Name.same c.fullName F.fullName = true) ∧
    (∃ r, resolve 1 classes = .ok r ∧
      r.classes.map (fun c => c.fields.map fun entry => entry.member.name) = [["a"], ["a"]]) ∧
    resolve 1 (classes.insertIdx 0 F) =
      (resolve 1 classes).map fun r => { r with classes := r.classes.insertIdx 0 F } := by
  intro classes F
  have hdefined : ∃ c ∈ classes, c.info.isComplete = true ∧
      Name.same c.fullName F.fullName = true := by decide
  exact ⟨rfl, rfl, hdefined, ⟨_, rfl, rfl⟩,
    resolve_insertIdx_of_mere_declaration rfl rfl hdefined 1 0⟩

end Inheritance

end ClassAtlas
