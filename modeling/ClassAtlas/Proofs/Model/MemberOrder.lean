import ClassAtlas.Proofs.Inheritance.Flattening
import ClassAtlas.Proofs.Model.Sorting
/-!
# Members in canonical order

The canonical order is a total preorder on the entries of any member list, and does not tell apart
what agrees in the names along the chain, in the name and in the type. Sorting by it is stable
(`ClassAtlas.IsStableSorting`), so it leaves a list alone that it has sorted before.

After inheritance has been resolved a member list holds own members and copies, and every copy has
come through at least one ancestor (`ClassAtlas.Inheritance.chain_ne_some_nil_of_resolve`). So in
canonical order the own members stand in front, and behind them the copies in groups, one for each
chain of names, with every group before those of longer chains that begin like its own
(`ClassAtlas.GroupedByOrigin`). Of the order only the first comparison counts for this: the chains
of names are in lexicographic order, where what is extended comes before its extensions
(`ClassAtlas.isLE_compare_of_isPrefix`).
-/

namespace ClassAtlas

variable {μ : Type} [Member μ] {entries : List (Entry μ)}

/-! ### Stable sorting -/

/-- **A list is the stable sorting of another one**: it has the same entries in canonical order, and
those that the order does not tell apart as they stood. -/
structure IsStableSorting (entries sorted : List (Entry μ)) : Prop where
  /-- The entries are the same. -/
  perm : sorted.Perm entries
  /-- The entries are in order. -/
  ordered : sorted.Pairwise fun a b => (a.order b).isLE = true
  /-- Entries that are equal in the order stand as they stood. -/
  stable : ∀ a : Entry μ,
    (sorted.filter fun b => a.order b = .eq) = entries.filter fun b => a.order b = .eq

theorem filter_order_eq_withKey (a : Entry μ) (entries : List (Entry μ)) :
    (entries.filter fun b => a.order b = .eq) = withKey a.sortKey entries :=
  List.filter_congr fun _ _ => decide_eq_decide.mpr (Entry.order_eq_eq_iff.trans eq_comm)

theorem isStableSorting_sortEntries (entries : List (Entry μ)) :
    IsStableSorting entries (sortEntries entries) where
  perm := List.mergeSort_perm entries _
  ordered := pairwise_sortEntries entries
  stable a := by
    rw [filter_order_eq_withKey, filter_order_eq_withKey, sortEntries_sameWithinKeys]

/-- **Sorting twice is sorting once.** -/
theorem sortEntries_sortEntries (entries : List (Entry μ)) :
    sortEntries (sortEntries entries) = sortEntries entries :=
  (sortEntries_sameWithinKeys entries).sortEntries_eq

/-! ### Chains of names in order -/

/-- **What is extended comes before its extensions** in lexicographic order. -/
theorem isLE_compare_of_isPrefix {names names' : List String} (h : names <+: names') :
    (compare names names').isLE = true := by
  induction names generalizing names' with
  | nil => cases names' <;> rfl
  | cons name names ih =>
    obtain ⟨rest, rfl⟩ := h
    have hself : compare name name = .eq := Std.ReflCmp.compare_self
    rw [List.cons_append, List.compare_cons_cons, hself]
    exact ih (List.prefix_append names rest)

/-- The order compares the chains of names first. -/
theorem Entry.isLE_compare_chainNames {a b : Entry μ} (h : (a.order b).isLE = true) :
    (compare a.chainNames b.chainNames).isLE = true := by
  rcases Ordering.isLE_then_iff_or.mp h with hlt | ⟨heq, -⟩
  · rw [hlt]
    rfl
  · rw [heq]
    rfl

/-- What has a property stands in front if nothing with the property stands behind something
without it. -/
theorem filter_isPrefix_of_pairwise {α : Type} {p : α → Bool} {l : List α}
    (h : l.Pairwise fun a b => p b = true → p a = true) : l.filter p <+: l := by
  induction l with
  | nil => exact List.nil_prefix
  | cons a l ih =>
    rw [List.pairwise_cons] at h
    by_cases ha : p a = true
    · rw [List.filter_cons_of_pos ha]
      exact (List.prefix_cons_inj a).mpr (ih h.2)
    · have hnone : l.filter p = [] := List.filter_eq_nil_iff.mpr fun b hb hpb => ha (h.1 b hb hpb)
      rw [List.filter_cons_of_neg ha, hnone]
      exact List.nil_prefix

/-! ### Groups -/

/-- **A member list is grouped by origin**: the own members stand in front, the members of one chain
of names stand together, and before all of a longer chain that begins with it. -/
structure GroupedByOrigin (entries : List (Entry μ)) : Prop where
  /-- The own members are the first entries. -/
  own_first : entries.filter Entry.isOwn <+: entries
  /-- Between two members of one chain there is none of another chain. -/
  together : ∀ i j k : Fin entries.length, i ≤ j → j ≤ k →
    (entries.get i).chainNames = (entries.get k).chainNames →
      (entries.get j).chainNames = (entries.get i).chainNames
  /-- Members of a chain stand before those of a longer one that begins with it. -/
  shorter_first : ∀ i j : Fin entries.length,
    (entries.get i).chainNames <+: (entries.get j).chainNames →
      (entries.get i).chainNames ≠ (entries.get j).chainNames → i < j

theorem isLE_compare_get (h : entries.Pairwise fun a b => (a.order b).isLE = true)
    {i j : Fin entries.length} (hij : i ≤ j) :
    (compare (entries.get i).chainNames (entries.get j).chainNames).isLE = true := by
  rcases hij.eq_or_lt with rfl | hlt
  · exact isLE_compare_of_isPrefix List.prefix_rfl
  · exact Entry.isLE_compare_chainNames (List.pairwise_iff_get.mp h i j hlt)

omit [Member μ] in
/-- A member is an own one exactly when there are no names along its chain, unless it is a copy that
came through no ancestor. -/
theorem Entry.isOwn_iff_of_ne {entry : Entry μ} (h : entry.chain ≠ some []) :
    entry.isOwn = true ↔ entry.chainNames = [] := by
  obtain ⟨member, - | chain⟩ := entry
  · simp [Entry.isOwn, Entry.chainNames]
  · have hne : chain ≠ [] := fun hnil => h (congrArg some hnil)
    simp [Entry.isOwn, Entry.chainNames, hne]

/-- **In canonical order a list is grouped by origin**, unless it holds a copy that came through no
ancestor. -/
theorem groupedByOrigin_of_pairwise
    (h : entries.Pairwise fun a b => (a.order b).isLE = true)
    (hchain : ∀ entry ∈ entries, entry.chain ≠ some []) : GroupedByOrigin entries where
  own_first := by
    refine filter_isPrefix_of_pairwise (h.imp_of_mem fun {a b} ha hb hab hown => ?_)
    -- nothing but the empty chain is before the empty chain
    rw [Entry.isOwn_iff_of_ne (hchain b hb)] at hown
    rw [Entry.isOwn_iff_of_ne (hchain a ha)]
    have hle := Entry.isLE_compare_chainNames hab
    rw [hown] at hle
    exact Std.LawfulEqCmp.eq_of_compare
      (Std.OrientedCmp.isLE_antisymm hle (isLE_compare_of_isPrefix List.nil_prefix))
  together i j k hij hjk heq := by
    have hle := isLE_compare_get h hij
    have hge := isLE_compare_get h hjk
    rw [← heq] at hge
    exact Std.LawfulEqCmp.eq_of_compare (Std.OrientedCmp.isLE_antisymm hge hle)
  shorter_first i j hprefix hne := by
    by_contra hnot
    exact hne (Std.LawfulEqCmp.eq_of_compare (Std.OrientedCmp.isLE_antisymm
      (isLE_compare_of_isPrefix hprefix) (isLE_compare_get h (not_lt.mp hnot))))

theorem groupedByOrigin_sortEntries (hchain : ∀ entry ∈ entries, entry.chain ≠ some []) :
    GroupedByOrigin (sortEntries entries) :=
  groupedByOrigin_of_pairwise (pairwise_sortEntries entries) fun entry hentry =>
    hchain entry ((isStableSorting_sortEntries entries).perm.mem_iff.mp hentry)

/-! ### Resolved classes -/

namespace Inheritance

variable {classes : List Class} {limit : Nat} {r : Resolution} {c : Class}

/-- No entry is a copy that came through no ancestor, where own members are followed by what is
inherited. -/
theorem chain_ne_some_nil_of_mem {ν : Type} {own : List (Entry ν)} {members : Declared → List ν}
    {found : List (Edge classes)} (hown : ∀ entry ∈ own, entry.isOwn) :
    ∀ entry ∈ own ++ inherited classes members found, entry.chain ≠ some [] := by
  intro entry hentry hnil
  rcases List.mem_append.mp hentry with hmem | hmem
  · have hisOwn := hown entry hmem
    rw [Entry.isOwn, hnil] at hisOwn
    cases hisOwn
  · obtain ⟨before, i, -, hchain, -⟩ := exists_route_of_mem_inherited hmem
    rw [hchain, Option.some.injEq, chainOf, List.map_eq_nil_iff] at hnil
    exact List.append_ne_nil_of_right_ne_nil before (List.cons_ne_nil i []) hnil

/-- **Every copy in a resolved class has come through an ancestor.** -/
theorem chain_ne_some_nil_of_resolve (hown : ∀ c ∈ classes, c.OwnOnly)
    (h : resolve limit classes = .ok r) (hc : c ∈ r.classes) :
    (∀ entry ∈ c.methods, entry.chain ≠ some []) ∧
      ∀ entry ∈ c.fields, entry.chain ≠ some [] := by
  obtain ⟨above, -, rfl⟩ := resolve_eq_ok_iff.mp h
  obtain ⟨i, rfl⟩ := List.mem_ofFn.mp hc
  have hgiven : (classes.get i).OwnOnly := hown _ (List.get_mem classes i)
  exact ⟨chain_ne_some_nil_of_mem hgiven.1, chain_ne_some_nil_of_mem hgiven.2⟩

/-- **The canonical order of members.** It is a total preorder on members of any kind, from both
sides the same, and equal in it are members that agree in the names along their chains, in their
names and in their types. Sorting the members of a class by it is stable, and doing so again changes
nothing. In a class that comes of resolving classes with own members only, it puts the own members
in front and the others into groups by chain, shorter chains before those that begin with them. -/
theorem canonical_order_of_members :
    (∀ {μ : Type} [Member μ] (a b c : Entry μ),
      ((a.order b).isLE = true ∨ (b.order a).isLE = true) ∧
      ((a.order b).isLE = true → (b.order c).isLE = true → (a.order c).isLE = true) ∧
      b.order a = (a.order b).swap ∧
      (a.order b = .eq ↔ a.chainNames = b.chainNames ∧
        Member.name a.member = Member.name b.member ∧ a.spelling = b.spelling)) ∧
    (∀ c : Class, IsStableSorting c.methods c.sortMembers.methods ∧
      IsStableSorting c.fields c.sortMembers.fields ∧ c.sortMembers.sortMembers = c.sortMembers) ∧
    ∀ (limit : Nat) (classes : List Class) (r : Resolution), (∀ c ∈ classes, c.OwnOnly) →
      resolve limit classes = .ok r → ∀ c ∈ r.classes,
        GroupedByOrigin c.sortMembers.methods ∧ GroupedByOrigin c.sortMembers.fields := by
  refine ⟨fun {μ} _ a b c => ⟨?_, Entry.isLE_order_trans a b c, Std.OrientedCmp.eq_swap, ?_⟩,
    fun c => ⟨isStableSorting_sortEntries _, isStableSorting_sortEntries _, ?_⟩,
    fun limit classes r hown h c hc => ?_⟩
  · exact Bool.or_eq_true_iff.mp (Entry.isLE_order_total a b)
  · rw [Entry.order_eq_eq_iff, Entry.sortKey, Entry.sortKey, Prod.mk.injEq, Member.sortKey,
      Member.sortKey, Prod.mk.injEq]
    rfl
  · rw [Class.sortMembers, Class.sortMembers]
    simp only [sortEntries_sortEntries]
  · obtain ⟨hmethods, hfields⟩ := chain_ne_some_nil_of_resolve hown h hc
    exact ⟨groupedByOrigin_sortEntries hmethods, groupedByOrigin_sortEntries hfields⟩

/-- Four classes, of which the last has two bases that share one. Its own fields and its bases are
declared against the canonical order, and the shared base has two fields of one name. -/
def againstOrder : List Class :=
  [((sample "A" []).addField ⟨⟨"a", some "long"⟩, none⟩).addField ⟨⟨"a", none⟩, none⟩,
    sample "B" ["A"], (sample "C" ["A"]).addField ⟨⟨"c", none⟩, none⟩,
    ((sample "D" ["C", "B"]).addField ⟨⟨"y", none⟩, none⟩).addField ⟨⟨"x", none⟩, none⟩]

/-- The last class has its own fields and those that came through its bases in the order in which
all were declared, and sorting puts them into groups. -/
theorem canonical_order_of_members_againstOrder :
    (∀ c ∈ againstOrder, c.OwnOnly) ∧ ∃ r last, resolve 2 againstOrder = .ok r ∧
      r.classes.getLast? = some last ∧ last.fields.map Entry.sortKey =
        [([], "y", ""), ([], "x", ""), (["C"], "c", ""), (["C", "A"], "a", "long"),
          (["C", "A"], "a", ""), (["B", "A"], "a", "long"), (["B", "A"], "a", "")] ∧
      IsStableSorting last.fields last.sortMembers.fields ∧
      GroupedByOrigin last.sortMembers.fields := by
  have hown : ∀ c ∈ againstOrder, c.OwnOnly := by decide
  have hresolve : resolve 2 againstOrder = .ok _ := rfl
  obtain ⟨-, hsorting, hgrouped⟩ := canonical_order_of_members
  refine ⟨hown, _, _, hresolve, rfl, by decide, (hsorting _).2.1, ?_⟩
  exact (hgrouped 2 againstOrder _ hown hresolve _ (List.mem_of_getLast? rfl)).2

end Inheritance

end ClassAtlas
