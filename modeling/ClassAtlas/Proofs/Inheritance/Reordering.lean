import Mathlib.Logic.Equiv.Fin.Rotate
import ClassAtlas.Proofs.Inheritance.Missing
import ClassAtlas.Proofs.Inheritance.Preference
/-!
# The order of declaration

The classes of a list may be put in another order. As long as those of one name stay in the order
in which they were, each class is resolved as before, only at another place
(`ClassAtlas.Inheritance.reordered_list_resolves_alike`): lookups prefer the same classes, so the
same edges lead up from each class, and in the same order.

What depends on the order of the list is which class a failure names, since it is the first that
fails, and in which order missing bases are reported, since they stand as they are met. Whether
resolving fails does not, and neither does which bases are missing.
-/

namespace ClassAtlas

namespace Inheritance

section Reordering

variable {xs ys : List Class} (σ : Fin xs.length ≃ Fin ys.length)

theorem missing_mem_map {f : Fin xs.length → Fin ys.length} {found : List (Edge xs)}
    {missing : UnresolvedBase} :
    .missing missing ∈ found.map (Edge.map f) ↔ .missing missing ∈ found := by
  rw [List.mem_map]
  constructor
  · rintro ⟨edge, hedge, hmap⟩
    cases edge with
    | reached route => cases hmap
    | missing missing' => exact Edge.missing.inj hmap ▸ hedge
  · intro hmem
    exact ⟨.missing missing, hmem, rfl⟩

/-- A list in another order keeps preferences when classes of one name stay in order. -/
theorem keepsPreference_of_reordering (hclass : ∀ i, ys.get (σ i) = xs.get i)
    (hstable : ∀ i j, i < j → Name.same (xs.get i).fullName (xs.get j).fullName = true →
      σ i < σ j) : KeepsPreference xs ys σ where
  get_eq := hclass
  le_of_le i j hname hle := by
    rcases hle.eq_or_lt with rfl | hlt
    · exact le_rfl
    · exact (hstable i j hlt hname).le
  surplus j := Or.inl ⟨σ.symm j, σ.apply_symm_apply j⟩

theorem mem_iff_of_reordering (hclass : ∀ i, ys.get (σ i) = xs.get i) {c : Class} :
    c ∈ ys ↔ c ∈ xs := by
  rw [List.mem_iff_get, List.mem_iff_get]
  refine (σ.exists_congr fun i => ?_).symm
  rw [hclass]

/-- The missing bases of a list in another order are the same, if those above each class are. -/
theorem unresolved_perm_of_reordering {above : Fin xs.length → List (Edge xs)}
    {above' : Fin ys.length → List (Edge ys)}
    (habove : ∀ i, above' (σ i) = (above i).map (Edge.map σ)) :
    ((List.ofFn above').flatten.filterMap Edge.missing?).eraseDups.Perm
      ((List.ofFn above).flatten.filterMap Edge.missing?).eraseDups := by
  -- neither list reports a base twice, so it is enough that they report the same ones
  rw [List.perm_ext_iff_of_nodup (nodup_eraseDups_missing _) (nodup_eraseDups_missing _)]
  intro missing
  rw [mem_eraseDups_missing, mem_eraseDups_missing, List.mem_flatten, List.mem_flatten]
  constructor
  · rintro ⟨found, hfound, hmem⟩
    obtain ⟨j, rfl⟩ := List.mem_ofFn.mp hfound
    obtain ⟨i, rfl⟩ := σ.surjective j
    rw [habove, missing_mem_map] at hmem
    exact ⟨above i, List.mem_ofFn.mpr ⟨i, rfl⟩, hmem⟩
  · rintro ⟨found, hfound, hmem⟩
    obtain ⟨i, rfl⟩ := List.mem_ofFn.mp hfound
    refine ⟨above' (σ i), List.mem_ofFn.mpr ⟨σ i, rfl⟩, ?_⟩
    rw [habove, missing_mem_map]
    exact hmem

end Reordering

/-- **Where a class stands in its list does not matter to it.** When the classes of a list are put
in another order that keeps those of one name in order, resolving fails or succeeds as before. If it
succeeds, each class comes out with the same members, along the same chains and in the same order,
at the place where it stands now, and the same bases are missing. -/
theorem reordered_list_resolves_alike {xs ys : List Class} (σ : Fin xs.length ≃ Fin ys.length)
    (hclass : ∀ i, ys.get (σ i) = xs.get i)
    (hstable : ∀ i j, i < j → Name.same (xs.get i).fullName (xs.get j).fullName = true →
      σ i < σ j) (limit : Nat) :
    ((∃ e, resolve limit ys = .error e) ↔ ∃ e, resolve limit xs = .error e) ∧
    ∀ r r', resolve limit xs = .ok r → resolve limit ys = .ok r' →
      (∃ (hxs : xs.length = r.classes.length) (hys : ys.length = r'.classes.length),
        ∀ i, r'.classes.get ((σ i).cast hys) = r.classes.get (i.cast hxs)) ∧
      r'.unresolved.Perm r.unresolved := by
  have hkeeps : KeepsPreference xs ys σ := keepsPreference_of_reordering σ hclass hstable
  constructor
  · rw [exists_resolve_eq_error_iff, exists_resolve_eq_error_iff]
    refine exists_congr fun c => and_congr (mem_iff_of_reordering σ hclass) hkeeps.hasRun_iff
  · intro r r' hr hr'
    obtain ⟨above, habove, rfl⟩ := resolve_eq_ok_iff.mp hr
    obtain ⟨above', habove', rfl⟩ := resolve_eq_ok_iff.mp hr'
    have hedges : ∀ i, above' (σ i) = (above i).map (Edge.map σ) := by
      intro i
      have hfound := habove' (σ i)
      rw [hclass, hkeeps.edgesWithin_eq, habove, Option.map_some] at hfound
      exact (Option.some.inj hfound).symm
    refine ⟨⟨List.length_ofFn.symm, List.length_ofFn.symm, fun i => ?_⟩,
      unresolved_perm_of_reordering σ hedges⟩
    rw [List.get_ofFn, List.get_ofFn]
    calc inherit ys (ys.get (σ i)) (above' (σ i))
        = inherit ys (xs.get i) ((above i).map (Edge.map σ)) := by rw [hclass, hedges]
      _ = inherit xs (xs.get i) (above i) := hkeeps.inherit_eq _ _

/-- A declaration of a class, its definition with a field, and a class that has it and a missing
class as bases. -/
def declaredBeforeUse : List Class :=
  [Class.new "A" "A" {}, (sample "A" []).addField ⟨⟨"a", some "int"⟩, none⟩,
    sample "B" ["::A", "Ghost"]]

/-- The class with the bases is moved to the front, so that it comes before them. -/
theorem reordered_list_resolves_alike_rotated :
    let ys := declaredBeforeUse.getLast?.toList ++ declaredBeforeUse.dropLast
    let σ : Fin declaredBeforeUse.length ≃ Fin ys.length := finRotate 3
    (∀ i, ys.get (σ i) = declaredBeforeUse.get i) ∧
    (∀ i j, i < j → Name.same (declaredBeforeUse.get i).fullName
      (declaredBeforeUse.get j).fullName = true → σ i < σ j) ∧
    ∃ r r', resolve 1 declaredBeforeUse = .ok r ∧ resolve 1 ys = .ok r' ∧
      (∃ (hxs : declaredBeforeUse.length = r.classes.length) (hys : ys.length = r'.classes.length),
        ∀ i, r'.classes.get ((σ i).cast hys) = r.classes.get (i.cast hxs)) ∧
      r'.unresolved.Perm r.unresolved := by
  intro ys σ
  have hclass : ∀ i, ys.get (σ i) = declaredBeforeUse.get i := by decide
  have hstable : ∀ i j, i < j → Name.same (declaredBeforeUse.get i).fullName
      (declaredBeforeUse.get j).fullName = true → σ i < σ j := by decide
  exact ⟨hclass, hstable, _, _, rfl, rfl,
    (reordered_list_resolves_alike σ hclass hstable 1).2 _ _ rfl rfl⟩

end Inheritance

end ClassAtlas
