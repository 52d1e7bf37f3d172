import ClassAtlas.Proofs.Inheritance.Correspondence
/-!
# Cycles among bases

There is no test for cycles beside the limit, and none is needed: a list whose graph of bases has
a cycle exceeds every limit, and one without cycles fits within every limit that leaves room for
all its classes (`ClassAtlas.Inheritance.cycle_exceeds_every_limit`). So an outcome of resolving
is proof that there are no cycles, and no route ever comes back to where it started or passes a
class twice.

A base that carries the name of the class that declares it stands for nothing. It is no cycle, and
the list fails or not as it would without such bases
(`ClassAtlas.Inheritance.withoutSelfBases`).
-/

namespace ClassAtlas

namespace Inheritance

variable {classes : List Class} {limit : Nat}

/-! ### The limit as a test for cycles -/

/-- **A cycle exceeds every limit.** -/
theorem resolve_eq_error_of_cycle {i : Fin classes.length}
    (h : Relation.TransGen (Extends classes) i i) (limit : Nat) :
    ∃ name, resolve limit classes = .error (.tooDeep name limit) := by
  have hdeep : HasRun classes (classes.get i) (limit + 1) := hasRun_of_cycle (limit + 1) h
  obtain ⟨e, he⟩ := exists_resolve_eq_error_iff.mpr ⟨classes.get i, List.getElem_mem _, hdeep⟩
  obtain ⟨before, c, after, -, rfl, -, -⟩ := resolve_eq_error_iff.mp he
  exact ⟨c.fullName, he⟩

/-- **Without cycles there is room for all**, when the limit is the number of classes or one
less. -/
theorem exists_resolve_of_acyclic (hacyclic : ∀ i, ¬Relation.TransGen (Extends classes) i i)
    (hle : classes.length ≤ limit + 1) : ∃ r, resolve limit classes = .ok r := by
  refine exists_resolve_eq_ok_iff.mpr fun c hc => ?_
  obtain ⟨i, hi, rfl⟩ := List.mem_iff_getElem.mp hc
  exact not_hasRun_of_length_le hacyclic hle ⟨i, hi⟩

/-- An outcome of resolving is proof that there are no cycles. -/
theorem acyclic_of_resolve {r : Resolution} (h : resolve limit classes = .ok r)
    (i : Fin classes.length) : ¬Relation.TransGen (Extends classes) i i := by
  intro hcycle
  obtain ⟨name, hname⟩ := resolve_eq_error_of_cycle hcycle limit
  rw [h] at hname
  cases hname

/-- **Routes do not come back**: in a list that can be resolved, a route from a position passes
neither that position nor another one twice. -/
theorem nodup_of_reached_mem {r : Resolution} (h : resolve limit classes = .ok r) {limit' : Nat}
    {i : Fin classes.length} {found : List (Edge classes)}
    (hfound : edges classes limit' (classes.get i) = .ok found) {route : List (Fin classes.length)}
    (hmem : .reached route ∈ found) : (i :: route).Nodup :=
  IsRun.nodup (acyclic_of_resolve h) (isRun_of_reached_mem (edges_eq_ok_iff.mp hfound) hmem).1

/-! ### Classes that name themselves as a base -/

/-- The class without the bases that carry its own name. -/
def withoutSelfBases (c : Class) : Class :=
  { c with info :=
      { c.info with bases := c.info.bases.filter fun base => !Name.same base.declared c.fullName } }

theorem map_lookupKey_withoutSelfBases (classes : List Class) :
    classes.map lookupKey = (classes.map withoutSelfBases).map lookupKey := by
  rw [List.map_map]
  rfl

/-- The positions of a list and of the list without such bases. -/
def positionEquiv (classes : List Class) :
    Fin classes.length ≃ Fin (classes.map withoutSelfBases).length :=
  finCongr (length_eq_of_keys (map_lookupKey_withoutSelfBases classes))

/-- A class has the same bases without those that carry its own name. -/
theorem isBase_withoutSelfBases {c : Class} {i : Fin classes.length} :
    IsBase (classes.map withoutSelfBases) (withoutSelfBases c) (positionEquiv classes i) ↔
      IsBase classes c i := by
  have hlookup : ∀ base : Ast.BaseClause,
      lookup? (classes.map withoutSelfBases) base.declared c.fullName =
        some (positionEquiv classes i) ↔ lookup? classes base.declared c.fullName = some i := by
    intro base
    rw [lookup?_congr (map_lookupKey_withoutSelfBases classes) rfl rfl]
    cases lookup? classes base.declared c.fullName with
    | none => simp
    | some j =>
      rw [Option.map_some, Option.some.injEq, Option.some.injEq]
      exact (positionEquiv classes).apply_eq_iff_eq
  constructor
  · rintro ⟨base, hbase, hi⟩
    exact ⟨base, (List.mem_filter.mp hbase).1, (hlookup base).mp hi⟩
  · rintro ⟨base, hbase, hi⟩
    refine ⟨base, List.mem_filter.mpr ⟨hbase, ?_⟩, (hlookup base).mpr hi⟩
    -- a base that is left out stands for nothing
    rw [Bool.not_eq_true', Bool.eq_false_iff]
    intro hsame
    rw [lookup?_of_same hsame] at hi
    cases hi

/-- **Bases that carry the name of their own class change no failure.** -/
theorem resolve_withoutSelfBases {e : Error} :
    resolve limit (classes.map withoutSelfBases) = .error e ↔
      resolve limit classes = .error e := by
  refine resolve_error_congr
    (List.forall₂_map_right_iff.mpr (List.forall₂_same.mpr fun c _ => ?_))
  refine ⟨rfl, hasRun_congr (R := fun c d => d = withoutSelfBases c) (positionEquiv classes)
    (fun i => ?_) ?_ rfl (limit + 1)⟩
  · simp [positionEquiv]
  · rintro c _ rfl i
    exact isBase_withoutSelfBases

/-- **Cycles exceed every limit, and nothing else exceeds one with room for all classes.** A list
whose graph of bases has a cycle fails to resolve within any limit, and a list without cycles
resolves within every limit that is one less than its length, or greater. So when a list resolves,
no route from a position comes back to it or passes a position twice. A base that carries the
name of its own class leads nowhere, and without such bases a list fails exactly as it does with
them. -/
theorem cycle_exceeds_every_limit (classes : List Class) :
    ((∃ i, Relation.TransGen (Extends classes) i i) →
      ∀ limit, ∃ name, resolve limit classes = .error (.tooDeep name limit)) ∧
    ((∀ i, ¬Relation.TransGen (Extends classes) i i) →
      ∀ limit, classes.length ≤ limit + 1 → ∃ r, resolve limit classes = .ok r) ∧
    (∀ limit r, resolve limit classes = .ok r →
      ∀ limit' i found route, edges classes limit' (classes.get i) = .ok found →
        .reached route ∈ found → i ∉ route ∧ route.Nodup) ∧
    (∀ i : Fin classes.length, ∀ base ∈ (classes.get i).info.bases,
      Name.same base.declared (classes.get i).fullName = true →
        lookup? classes base.declared (classes.get i).fullName = none) ∧
    (∀ i, ¬Extends classes i i) ∧
    ∀ limit e, resolve limit (classes.map withoutSelfBases) = .error e ↔
      resolve limit classes = .error e := by
  refine ⟨?_, fun hacyclic limit hle => exists_resolve_of_acyclic hacyclic hle, ?_,
    fun i base _ hsame => lookup?_of_same hsame, not_extends_self,
    fun limit e => resolve_withoutSelfBases⟩
  · rintro ⟨i, hi⟩ limit
    exact resolve_eq_error_of_cycle hi limit
  · intro limit r hr limit' i found route hfound hmem
    exact List.nodup_cons.mp (nodup_of_reached_mem hr hfound hmem)

/-- A cycle of two that a third class reaches from outside, and two classes of which one names
itself as a base, with room for just the two. -/
theorem cycle_exceeds_every_limit_pair :
    (∀ limit, ∃ name, resolve limit [sample "D" ["A"], sample "A" ["B"], sample "B" ["::A"]] =
      .error (.tooDeep name limit)) ∧
    ∃ r, resolve 1 [sample "B" ["A", "::B"], sample "A" []] = .ok r := by
  refine ⟨(cycle_exceeds_every_limit _).1 ⟨1, .tail (b := 2) (.single (by decide)) (by decide)⟩,
    (cycle_exceeds_every_limit _).2.1 (fun i hcycle => ?_) 1 (by decide)⟩
  -- bases stand for later positions only
  have hup : Extends [sample "B" ["A", "::B"], sample "A" []] ≤ (· < ·) := by
    change ∀ i j, Extends [sample "B" ["A", "::B"], sample "A" []] i j → i < j
    decide
  have hlt : i < i := Relation.transGen_minimal hup i i hcycle
  exact lt_irrefl i hlt

end Inheritance

end ClassAtlas
