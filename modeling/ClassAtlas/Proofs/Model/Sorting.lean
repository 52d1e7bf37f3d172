import Mathlib.Data.List.Basic
import ClassAtlas.Model.Order
/-!
# Sorted member lists

What the canonical order sees of an entry is its key: the names along its chain, its name and its
type (`ClassAtlas.Entry.sortKey`). Two entries are equal in the order exactly when their keys are
(`ClassAtlas.Entry.order_eq_eq_iff`), and entries with equal keys may still be different: a sorted
list is not determined by its entries.

It is determined by the entries of each key in their order
(`ClassAtlas.SameWithinKeys`, `ClassAtlas.SameWithinKeys.sortEntries_eq`), and sorting keeps these
(`ClassAtlas.sortEntries_sameWithinKeys`). So to see that two lists are sorted alike it is enough to
look at one key at a time, which is done part by part where the lists are put together from parts
(`ClassAtlas.SameWithinKeys.append`, `ClassAtlas.SameWithinKeys.flatMap`).
-/

namespace ClassAtlas

variable {μ : Type} [Member μ]

/-! ### The order and its keys -/

/-- What the order sees of a member: its name and its type, empty if it has none. -/
def Member.sortKey (m : μ) : String × String :=
  (Member.name m, (Member.spelling m).getD "")

/-- **What the order sees of an entry**: the names along its chain and what it sees of the
member. -/
def Entry.sortKey (entry : Entry μ) : List String × String × String :=
  (entry.chainNames, Member.sortKey entry.member)

/-- The order compares names along chains, then names, then types. -/
instance Entry.transCmp_order : Std.TransCmp (Entry.order : Entry μ → Entry μ → Ordering) :=
  inferInstanceAs (Std.TransCmp (compareLex (compareOn Entry.chainNames)
    (compareLex (compareOn fun entry : Entry μ => Member.name entry.member)
      (compareOn Entry.spelling))))

/-- **Entries are equal in the order** exactly when it sees the same of them. -/
theorem Entry.order_eq_eq_iff {a b : Entry μ} : a.order b = .eq ↔ a.sortKey = b.sortKey := by
  rw [Entry.order, Ordering.then_eq_eq, Ordering.then_eq_eq, Std.LawfulEqCmp.compare_eq_iff_eq,
    Std.LawfulEqCmp.compare_eq_iff_eq, Std.LawfulEqCmp.compare_eq_iff_eq]
  simp [Entry.sortKey, Member.sortKey, Entry.spelling]

theorem Entry.isLE_order_refl (a : Entry μ) : (a.order a).isLE = true := by
  rw [Entry.order_eq_eq_iff.mpr rfl]
  rfl

theorem Entry.isLE_order_trans (a b c : Entry μ) (hab : (a.order b).isLE = true)
    (hbc : (b.order c).isLE = true) : (a.order c).isLE = true :=
  Std.TransCmp.isLE_trans hab hbc

theorem Entry.isLE_order_total (a b : Entry μ) :
    ((a.order b).isLE || (b.order a).isLE) = true := by
  have hswap : b.order a = (a.order b).swap := Std.OrientedCmp.eq_swap
  rw [hswap]
  cases a.order b <;> rfl

/-- Entries that are not behind each other have the same key. -/
theorem Entry.sortKey_eq_of_isLE {a b : Entry μ} (hab : (a.order b).isLE = true)
    (hba : (b.order a).isLE = true) : a.sortKey = b.sortKey :=
  Entry.order_eq_eq_iff.mp (Std.OrientedCmp.isLE_antisymm hab hba)

/-- A list that is sorted has the entries in order. -/
theorem pairwise_sortEntries (entries : List (Entry μ)) :
    (sortEntries entries).Pairwise fun a b => (a.order b).isLE = true :=
  List.pairwise_mergeSort Entry.isLE_order_trans Entry.isLE_order_total entries

/-! ### Entries of one key -/

/-- The entries with the given key, as they stand. -/
def withKey (key : List String × String × String) (entries : List (Entry μ)) : List (Entry μ) :=
  entries.filter fun entry => entry.sortKey = key

@[simp] theorem mem_withKey {key : List String × String × String} {entries : List (Entry μ)}
    {entry : Entry μ} : entry ∈ withKey key entries ↔ entry ∈ entries ∧ entry.sortKey = key := by
  simp [withKey]

/-- **Two lists have the same entries of each key**, in the same order. -/
def SameWithinKeys (entries entries' : List (Entry μ)) : Prop :=
  ∀ key, withKey key entries = withKey key entries'

variable {entries entries' rest rest' : List (Entry μ)}

theorem SameWithinKeys.refl (entries : List (Entry μ)) : SameWithinKeys entries entries :=
  fun _ => rfl

theorem SameWithinKeys.symm (h : SameWithinKeys entries entries') :
    SameWithinKeys entries' entries :=
  fun key => (h key).symm

theorem SameWithinKeys.trans (h : SameWithinKeys entries entries')
    (h' : SameWithinKeys entries' rest) : SameWithinKeys entries rest :=
  fun key => (h key).trans (h' key)

/-- Lists with the same entries of each key have the same entries. -/
theorem SameWithinKeys.mem_iff (h : SameWithinKeys entries entries') (entry : Entry μ) :
    entry ∈ entries ↔ entry ∈ entries' := by
  have hkey := congrArg (entry ∈ ·) (h entry.sortKey)
  simpa using hkey

theorem SameWithinKeys.append (h : SameWithinKeys entries entries')
    (hrest : SameWithinKeys rest rest') :
    SameWithinKeys (entries ++ rest) (entries' ++ rest') := by
  intro key
  have hfirst := h key
  have hsecond := hrest key
  rw [withKey, withKey] at hfirst hsecond ⊢
  rw [List.filter_append, List.filter_append, hfirst, hsecond]

theorem SameWithinKeys.flatMap {α : Type} {l : List α} {g g' : α → List (Entry μ)}
    (h : ∀ a ∈ l, SameWithinKeys (g a) (g' a)) : SameWithinKeys (l.flatMap g) (l.flatMap g') := by
  induction l with
  | nil => exact SameWithinKeys.refl []
  | cons a l ih =>
    obtain ⟨hhead, htail⟩ := List.forall_mem_cons.mp h
    exact hhead.append (ih htail)

/-- **Sorting is stable**: it keeps the entries of each key in their order. -/
theorem sortEntries_sameWithinKeys (entries : List (Entry μ)) :
    SameWithinKeys (sortEntries entries) entries := by
  intro key
  -- the entries of one key are in order as they stand, so they are still there in the sorted list
  have hsorted : (withKey key entries).Pairwise fun a b => (a.order b).isLE = true := by
    refine List.pairwise_iff_forall_sublist.mpr fun {a b} hab => ?_
    obtain ⟨-, ha⟩ := mem_withKey.mp (hab.subset List.mem_cons_self)
    obtain ⟨-, hb⟩ := mem_withKey.mp (hab.subset (List.mem_cons_of_mem a List.mem_cons_self))
    rw [Entry.order_eq_eq_iff.mpr (ha.trans hb.symm)]
    rfl
  have hsublist : (withKey key entries).Sublist (sortEntries entries) :=
    List.sublist_mergeSort Entry.isLE_order_trans Entry.isLE_order_total hsorted
      List.filter_sublist
  have hkept : (withKey key entries).Sublist (withKey key (sortEntries entries)) := by
    have hfiltered := hsublist.filter fun entry : Entry μ => decide (entry.sortKey = key)
    rw [withKey, List.filter_filter] at hfiltered
    simpa only [withKey, Bool.and_self] using hfiltered
  refine (hkept.eq_of_length ?_).symm
  exact ((List.mergeSort_perm entries _).filter _).length_eq.symm

/-- **Sorted lists with the same entries of each key are equal.** -/
theorem SameWithinKeys.eq_of_pairwise (h : SameWithinKeys entries entries')
    (hentries : entries.Pairwise fun a b => (a.order b).isLE = true)
    (hentries' : entries'.Pairwise fun a b => (a.order b).isLE = true) : entries = entries' := by
  induction entries generalizing entries' with
  | nil =>
    cases entries' with
    | nil => rfl
    | cons b rest' => cases (h.mem_iff b).mpr List.mem_cons_self
  | cons a rest ih =>
    cases entries' with
    | nil => cases (h.mem_iff a).mp List.mem_cons_self
    | cons b rest' =>
      have hle : (a.order b).isLE = true := by
        rcases List.mem_cons.mp ((h.mem_iff b).mpr List.mem_cons_self) with rfl | hb
        · exact Entry.isLE_order_refl b
        · exact List.rel_of_pairwise_cons hentries hb
      have hge : (b.order a).isLE = true := by
        rcases List.mem_cons.mp ((h.mem_iff a).mp List.mem_cons_self) with rfl | ha
        · exact Entry.isLE_order_refl a
        · exact List.rel_of_pairwise_cons hentries' ha
      -- the first entries have one key, and each is the first with that key
      have hkeys : b.sortKey = a.sortKey := (Entry.sortKey_eq_of_isLE hle hge).symm
      have hfirst := h a.sortKey
      simp only [withKey, List.filter_cons, hkeys, decide_true, if_true] at hfirst
      obtain ⟨rfl, -⟩ := List.cons.inj hfirst
      refine congrArg (a :: ·) (ih (fun key => ?_) hentries.of_cons hentries'.of_cons)
      have hkey := h key
      by_cases ha : a.sortKey = key
      · simpa [withKey, ha] using hkey
      · simpa [withKey, ha] using hkey

/-- **What is the same within keys is sorted alike.** -/
theorem SameWithinKeys.sortEntries_eq (h : SameWithinKeys entries entries') :
    sortEntries entries = sortEntries entries' := by
  have hsame : SameWithinKeys (sortEntries entries) (sortEntries entries') :=
    (sortEntries_sameWithinKeys entries).trans
      (h.trans (sortEntries_sameWithinKeys entries').symm)
  exact hsame.eq_of_pairwise (pairwise_sortEntries entries) (pairwise_sortEntries entries')

end ClassAtlas
