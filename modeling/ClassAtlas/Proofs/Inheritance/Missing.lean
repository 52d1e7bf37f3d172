import Mathlib.Data.List.Basic
import Mathlib.Data.List.Induction
import ClassAtlas.Proofs.Inheritance.Limit
/-!
# Missing bases

Resolving collects the bases that are missing while it climbs from every class of the list to all
of its ancestors, so it meets a missing base once for each way that leads to the class which
declares it. What comes out does not depend on these ways: a base is reported exactly when some
class of the list declares it and it stands for nothing
(`ClassAtlas.Inheritance.IsMissing`), since whatever a climb reaches is a class of the list
itself. Each report comes once, in the order in which the climbs meet them
(`ClassAtlas.Inheritance.missing_bases_reported_once`).
-/

namespace ClassAtlas

namespace Inheritance

variable {classes : List Class} {limit : Nat}

/-- **A missing base of a class**: one that it declares and that stands for nothing, with the name
of the class. -/
def IsMissing (classes : List Class) (c : Class) (missing : UnresolvedBase) : Prop :=
  ∃ base ∈ c.info.bases, lookup? classes base.declared c.fullName = none ∧
    missing = ⟨Name.bare base.declared, c.fullName⟩

/-! ### What a climb meets -/

/-- An unfolding has the missing bases of the class, and those above its bases. -/
theorem missing_mem_edgesOver {above : Fin classes.length → List (Edge classes)} {c : Class}
    {missing : UnresolvedBase} :
    .missing missing ∈ edgesOver classes above c ↔
      IsMissing classes c missing ∨
        ∃ i, IsBase classes c i ∧ .missing missing ∈ above i := by
  rw [edgesOver, List.mem_flatMap]
  constructor
  · rintro ⟨base, hbase, hmem⟩
    cases hi : lookup? classes base.declared c.fullName with
    | none =>
      rw [edgesFrom_of_none hi, List.mem_singleton] at hmem
      exact Or.inl ⟨base, hbase, hi, Edge.missing.inj hmem⟩
    | some i =>
      rw [edgesFrom_of_some hi] at hmem
      obtain ⟨edge, hedge, hvia⟩ := List.mem_map.mp ((List.mem_cons.mp hmem).resolve_left (by simp))
      cases edge with
      | reached route => cases hvia
      | missing missing' =>
        obtain rfl := Edge.missing.inj hvia
        exact Or.inr ⟨i, ⟨base, hbase, hi⟩, hedge⟩
  · rintro (⟨base, hbase, hnone, rfl⟩ | ⟨i, ⟨base, hbase, hi⟩, hmem⟩)
    · refine ⟨base, hbase, ?_⟩
      rw [edgesFrom_of_none hnone]
      exact List.mem_singleton.mpr rfl
    · refine ⟨base, hbase, ?_⟩
      rw [edgesFrom_of_some hi]
      exact List.mem_cons_of_mem _ (List.mem_map.mpr ⟨_, hmem, rfl⟩)

/-- A climb meets the missing bases of the class where it starts. -/
theorem missing_mem_of_isMissing {c : Class} {found : List (Edge classes)}
    (h : edgesWithin classes limit c = some found) {missing : UnresolvedBase}
    (hmissing : IsMissing classes c missing) : .missing missing ∈ found := by
  rw [(edgesWithin_fixed h).2]
  exact missing_mem_edgesOver.mpr (Or.inl hmissing)

/-- **A climb meets no other missing bases** than those of the class where it starts and those of
classes of the list. -/
theorem isMissing_of_missing_mem {c : Class} {found : List (Edge classes)}
    (h : edgesWithin classes limit c = some found) {missing : UnresolvedBase}
    (hmem : .missing missing ∈ found) :
    IsMissing classes c missing ∨ ∃ d ∈ classes, IsMissing classes d missing := by
  refine edges_induction (P := fun c found => .missing missing ∈ found →
    IsMissing classes c missing ∨ ∃ d ∈ classes, IsMissing classes d missing)
    (fun c above habove hmem => ?_) h hmem
  refine (missing_mem_edgesOver.mp hmem).imp_right ?_
  rintro ⟨i, hi, hmem⟩
  -- the class at the base is a class of the list like any other
  rcases habove i hi hmem with hmissing | hlisted
  · exact ⟨classes.get i, List.get_mem classes i, hmissing⟩
  · exact hlisted

/-! ### First occurrences -/

theorem mem_eraseDups_missing {found : List (Edge classes)} {missing : UnresolvedBase} :
    missing ∈ (found.filterMap Edge.missing?).eraseDups ↔ .missing missing ∈ found := by
  rw [List.mem_eraseDups, List.mem_filterMap]
  constructor
  · rintro ⟨edge, hedge, hmissing⟩
    cases edge with
    | reached route => cases hmissing
    | missing missing' => exact Option.some.inj hmissing ▸ hedge
  · exact fun hmem => ⟨_, hmem, rfl⟩

/-- One entry more is kept behind the others, unless it is one of them. -/
theorem eraseDups_concat {α : Type} [DecidableEq α] (l : List α) (a : α) :
    (l ++ [a]).eraseDups = if a ∈ l then l.eraseDups else l.eraseDups ++ [a] := by
  rw [List.eraseDups_append]
  split
  · next hmem => simp [List.removeAll, hmem]
  · next hmem => simp [List.removeAll, hmem, List.eraseDups_cons]

/-- The missing bases of some edges stand in the order in which they are met first. -/
theorem pairwise_eraseDups_missing (found : List (Edge classes)) :
    (found.filterMap Edge.missing?).eraseDups.Pairwise fun a b =>
      found.idxOf (.missing a) < found.idxOf (.missing b) := by
  induction found using List.reverseRecOn with
  | nil => exact List.Pairwise.nil
  | append_singleton found edge ih =>
    -- what has been met keeps its place
    have hold : (found.filterMap Edge.missing?).eraseDups.Pairwise fun a b =>
        (found ++ [edge]).idxOf (.missing a) < (found ++ [edge]).idxOf (.missing b) := by
      refine ih.imp_of_mem fun {a b} ha hb hlt => ?_
      rwa [List.idxOf_append_of_mem (mem_eraseDups_missing.mp ha),
        List.idxOf_append_of_mem (mem_eraseDups_missing.mp hb)]
    cases edge with
    | reached route =>
      rwa [List.filterMap_append, show [Edge.reached route].filterMap Edge.missing? = [] from rfl,
        List.append_nil]
    | missing missing =>
      have hlast : [(.missing missing : Edge classes)].filterMap Edge.missing? = [missing] := rfl
      rw [List.filterMap_append, hlast, eraseDups_concat]
      split
      · exact hold
      · next hnew =>
        refine List.pairwise_append.mpr ⟨hold, List.pairwise_singleton _ _, fun a ha b hb => ?_⟩
        obtain rfl := List.mem_singleton.mp hb
        rw [← List.mem_eraseDups, mem_eraseDups_missing] at hnew
        have hmet := mem_eraseDups_missing.mp ha
        rw [List.idxOf_append_of_mem hmet, List.idxOf_append_of_notMem hnew]
        exact Nat.lt_add_right _ (List.idxOf_lt_length_of_mem hmet)

/-- The missing bases of some edges come once each. -/
theorem nodup_eraseDups_missing (found : List (Edge classes)) :
    (found.filterMap Edge.missing?).eraseDups.Nodup := by
  refine (pairwise_eraseDups_missing found).imp fun {a b} hlt (heq : a = b) => ?_
  rw [heq] at hlt
  exact lt_irrefl _ hlt

/-! ### What is reported -/

/-- **What is reported as missing** is what some class of the list misses. -/
theorem mem_unresolved_iff {r : Resolution} (h : resolve limit classes = .ok r)
    {missing : UnresolvedBase} :
    missing ∈ r.unresolved ↔ ∃ c ∈ classes, IsMissing classes c missing := by
  obtain ⟨above, habove, rfl⟩ := resolve_eq_ok_iff.mp h
  refine mem_eraseDups_missing.trans (List.mem_flatten.trans ⟨?_, ?_⟩)
  · rintro ⟨found, hfound, hmem⟩
    obtain ⟨i, rfl⟩ := List.mem_ofFn.mp hfound
    rcases isMissing_of_missing_mem (habove i) hmem with hmissing | hlisted
    · exact ⟨classes.get i, List.get_mem classes i, hmissing⟩
    · exact hlisted
  · rintro ⟨c, hc, hmissing⟩
    obtain ⟨i, rfl⟩ := List.mem_iff_get.mp hc
    exact ⟨above i, List.mem_ofFn.mpr ⟨i, rfl⟩, missing_mem_of_isMissing (habove i) hmissing⟩

/-- **The missing bases of a list are reported once each.** In the outcome of resolving stands
what some class of the list declares as a base and what stands for nothing, with the name of that
class, and nothing else; and it stands there in the order in which the edges above the classes,
one class after the other, meet it first. -/
theorem missing_bases_reported_once {classes : List Class} {limit : Nat} {r : Resolution}
    (h : resolve limit classes = .ok r) :
    r.unresolved.Nodup ∧
    (∀ missing, missing ∈ r.unresolved ↔ ∃ c ∈ classes, IsMissing classes c missing) ∧
    ∃ found, List.Forall₂ (fun c above => edges classes limit c = .ok above) classes found ∧
      (∀ missing, missing ∈ r.unresolved ↔ .missing missing ∈ found.flatten) ∧
      r.unresolved.Pairwise fun a b =>
        found.flatten.idxOf (.missing a) < found.flatten.idxOf (.missing b) := by
  have hmem : ∀ missing, missing ∈ r.unresolved ↔ ∃ c ∈ classes, IsMissing classes c missing :=
    fun _ => mem_unresolved_iff h
  obtain ⟨above, habove, rfl⟩ := resolve_eq_ok_iff.mp h
  refine ⟨nodup_eraseDups_missing _, hmem, List.ofFn above, ?_,
    fun missing => mem_eraseDups_missing, pairwise_eraseDups_missing _⟩
  refine List.forall₂_iff_get.mpr ⟨by rw [List.length_ofFn], fun i hi hi' => ?_⟩
  rw [List.get_ofFn]
  exact edges_eq_ok_iff.mpr (habove ⟨i, hi⟩)

/-- A class with a missing base between two that lead to the same ancestor, which misses the same
base, and a second class of its name. -/
def haunted : List Class :=
  [sample "D" ["B", "::Ghost", "C"], sample "B" ["A"], sample "C" ["A"], sample "A" ["Ghost"],
    sample "D" ["Ghoul", "Ghost"]]

/-- Both ways to the shared ancestor come to its missing base, and two classes of one name miss
the same base: three reports, that of the ancestor first. -/
theorem missing_bases_reported_once_haunted :
    ∃ r, resolve 2 haunted = .ok r ∧
      r.unresolved = [⟨"Ghost", "A"⟩, ⟨"Ghost", "D"⟩, ⟨"Ghoul", "D"⟩] ∧ r.unresolved.Nodup ∧
      ∀ missing, missing ∈ r.unresolved ↔ ∃ c ∈ haunted, IsMissing haunted c missing := by
  refine ⟨_, rfl, rfl, ?_⟩
  obtain ⟨hnodup, hmem, -⟩ :=
    missing_bases_reported_once (show resolve 2 haunted = .ok _ from rfl)
  exact ⟨hnodup, hmem⟩

end Inheritance

end ClassAtlas
