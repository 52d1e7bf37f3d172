import Mathlib.Data.Fintype.Card
import Mathlib.Data.List.Chain
import ClassAtlas.Inheritance.Lookup
/-!
# The graph of bases

The bases of the classes of a list make a graph on the positions of the list: position `i` leads
to position `j` when the class at `i` declares a base that stands for the class at `j`
(`ClassAtlas.Inheritance.Extends`). Following it from any class, which need not be in the list
itself, gives the runs of bases (`ClassAtlas.Inheritance.IsRun`). Nothing here mentions a limit:
the runs are what the limit on the depth of inheritance is about.

Two facts tie the length of runs to cycles, and they are all that a list of finite length needs.

* **A position on a cycle starts runs of every length**
  (`ClassAtlas.Inheritance.hasRun_of_cycle`): each position of a cycle leads to one on the same
  cycle.
* **Without cycles a run meets no position twice** (`ClassAtlas.Inheritance.IsRun.nodup`), so it
  is shorter than the list (`ClassAtlas.Inheritance.IsRun.length_lt`).
-/

namespace ClassAtlas

namespace Inheritance

variable {classes : List Class}

/-- A complete class without members that declares the given bases, as small lists of classes
are made of. -/
def sample (name : String) (bases : List String) : Class :=
  Class.new name name
    { bases := bases.map fun base => { access := "public", type := ⟨some base⟩ }
      isComplete := true }

/-! ### What a base stands for -/

/-- A class is never its own base, however the base is spelt. -/
theorem lookup?_of_same {qualified fromName : String} (h : Name.same qualified fromName = true) :
    lookup? classes qualified fromName = none := by
  rw [lookup?, if_pos h]

/-- A base stands for a class with its name. -/
theorem isNamed_of_lookup? {qualified fromName : String} {i : Fin classes.length}
    (h : lookup? classes qualified fromName = some i) :
    (classes.get i).isNamed qualified = true := by
  rw [lookup?] at h
  split at h
  · cases h
  · rw [Option.orElse_eq_orElse, Option.orElse_eq_or] at h
    rcases Option.or_eq_some_iff.mp h with hi | ⟨-, hi⟩
    · have hboth := (List.findFinIdx?_eq_some_iff.mp hi).1
      exact (Bool.and_eq_true_iff.mp hboth).1
    · exact (List.findFinIdx?_eq_some_iff.mp hi).1

/-- **A class is a base of another**: the class at position `i` is what some base of `c` stands
for. -/
def IsBase (classes : List Class) (c : Class) (i : Fin classes.length) : Prop :=
  ∃ base ∈ c.info.bases, lookup? classes base.declared c.fullName = some i

instance (classes : List Class) (c : Class) (i : Fin classes.length) :
    Decidable (IsBase classes c i) :=
  inferInstanceAs
    (Decidable (∃ base ∈ c.info.bases, lookup? classes base.declared c.fullName = some i))

/-- The class at one position declares a base that stands for the class at another. -/
def Extends (classes : List Class) (i j : Fin classes.length) : Prop :=
  IsBase classes (classes.get i) j

instance (classes : List Class) (i j : Fin classes.length) : Decidable (Extends classes i j) :=
  inferInstanceAs (Decidable (IsBase classes (classes.get i) j))

/-- A base has another name than the class that declares it. -/
theorem IsBase.not_isNamed {c : Class} {i : Fin classes.length} (h : IsBase classes c i) :
    ¬(classes.get i).isNamed c.fullName = true := by
  obtain ⟨base, -, hi⟩ := h
  intro hname
  have hbase : Name.same base.declared c.fullName = true := by
    rw [Name.same_iff, ← Name.same_iff.mp (isNamed_of_lookup? hi)]
    exact Name.same_iff.mp hname
  rw [lookup?_of_same hbase] at hi
  cases hi

/-- No position leads to itself. -/
theorem not_extends_self (i : Fin classes.length) : ¬Extends classes i i := fun h =>
  h.not_isNamed (Name.same_iff.mpr rfl)

/-! ### Runs of bases -/

/-- **A run of bases** from a class: the first position is a base of the class, and each further
one is a base of the class before it. -/
def IsRun (classes : List Class) : Class → List (Fin classes.length) → Prop
  | _, [] => True
  | c, i :: route => IsBase classes c i ∧ IsRun classes (classes.get i) route

instance decidableIsRun (classes : List Class) :
    ∀ (c : Class) (route : List (Fin classes.length)), Decidable (IsRun classes c route)
  | _, [] => isTrue trivial
  | c, i :: route =>
      have := decidableIsRun classes (classes.get i) route
      inferInstanceAs (Decidable (IsBase classes c i ∧ IsRun classes (classes.get i) route))

/-- A class starts a run of so many bases. -/
def HasRun (classes : List Class) (c : Class) (n : Nat) : Prop :=
  ∃ route, IsRun classes c route ∧ route.length = n

theorem hasRun_zero (c : Class) : HasRun classes c 0 := ⟨[], trivial, rfl⟩

theorem hasRun_succ {c : Class} {n : Nat} :
    HasRun classes c (n + 1) ↔ ∃ i, IsBase classes c i ∧ HasRun classes (classes.get i) n := by
  constructor
  · rintro ⟨_ | ⟨i, route⟩, hrun, hlen⟩
    · cases hlen
    · exact ⟨i, hrun.1, route, hrun.2, Nat.succ.inj hlen⟩
  · rintro ⟨i, hi, route, hrun, rfl⟩
    exact ⟨i :: route, ⟨hi, hrun⟩, rfl⟩

/-- The runs from a position are the paths of the graph that start there. -/
theorem isRun_iff_isChain {i : Fin classes.length} {route : List (Fin classes.length)} :
    IsRun classes (classes.get i) route ↔ List.IsChain (Extends classes) (i :: route) := by
  induction route generalizing i with
  | nil => simp [IsRun]
  | cons j route ih => rw [IsRun, List.isChain_cons_cons, ih, Extends]

/-- A run that is cut short is a run. -/
theorem IsRun.take {c : Class} {route : List (Fin classes.length)} (h : IsRun classes c route)
    (n : Nat) : IsRun classes c (route.take n) := by
  induction route generalizing c n with
  | nil =>
    rw [List.take_nil]
    exact trivial
  | cons i route ih =>
    cases n with
    | zero => exact trivial
    | succ n => exact ⟨h.1, ih h.2 n⟩

/-! ### Runs and cycles -/

/-- **A position on a cycle starts runs of every length.** -/
theorem hasRun_of_cycle (n : Nat) {i : Fin classes.length}
    (h : Relation.TransGen (Extends classes) i i) : HasRun classes (classes.get i) n := by
  induction n generalizing i with
  | zero => exact hasRun_zero _
  | succ n ih =>
    -- the position that follows lies on the same cycle
    obtain ⟨j, hij, hji⟩ := Relation.TransGen.head'_iff.mp h
    exact hasRun_succ.mpr ⟨j, hij, ih (Relation.TransGen.tail' hji hij)⟩

section Acyclic

variable (hacyclic : ∀ i, ¬Relation.TransGen (Extends classes) i i)

include hacyclic

/-- **Without cycles a run meets no position twice**, and does not come back to its start. -/
theorem IsRun.nodup {i : Fin classes.length} {route : List (Fin classes.length)}
    (h : IsRun classes (classes.get i) route) : (i :: route).Nodup := by
  -- a path joins each position of the run to every later one
  have hchain : List.IsChain (Relation.TransGen (Extends classes)) (i :: route) :=
    (isRun_iff_isChain.mp h).imp fun _ _ hstep => Relation.TransGen.single hstep
  refine (List.isChain_iff_pairwise.mp hchain).imp fun {a b} hab heq => ?_
  exact hacyclic a (heq ▸ hab)

/-- Without cycles a run from a position is shorter than the list. -/
theorem IsRun.length_lt {i : Fin classes.length} {route : List (Fin classes.length)}
    (h : IsRun classes (classes.get i) route) : route.length < classes.length := by
  have hcard := (IsRun.nodup hacyclic h).length_le_card
  rwa [List.length_cons, Fintype.card_fin] at hcard

/-- Without cycles no position starts a run as long as the list. -/
theorem not_hasRun_of_length_le {n : Nat} (hn : classes.length ≤ n) (i : Fin classes.length) :
    ¬HasRun classes (classes.get i) n := by
  rintro ⟨route, hrun, rfl⟩
  exact absurd (IsRun.length_lt hacyclic hrun) (by omega)

end Acyclic

end Inheritance

end ClassAtlas
