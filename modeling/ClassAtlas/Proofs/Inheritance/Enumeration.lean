import Mathlib.Data.List.Forall2
import ClassAtlas.Proofs.Inheritance.Limit
/-!
# The edges above a class, one by one

A sequence of numbers says how to climb from a class: the first number picks a base of the class,
the second a base of the class that this base stands for, and so on. The sequences for which each
number picks a base, and each but the last picks one that stands for a class, are the addresses
above the class (`ClassAtlas.Inheritance.IsAddress`). At an address there is one edge
(`ClassAtlas.Inheritance.existsUnique_leads`): it reaches the class that the last base stands for,
or says that this base is missing (`ClassAtlas.Inheritance.Leads`).

**The edges above a class are the edges at its addresses, in lexicographic order of the
addresses** (`ClassAtlas.Inheritance.edges_enumerate`). The order puts an address before all that
continue it, so it is the pre-order of the climb; and since it is strict, an ancestor that is
reached at two addresses has two edges.
-/

namespace ClassAtlas

namespace Inheritance

variable {classes : List Class}

/-! ### Climbing by number -/

/-- **Climbing by number** from a class: each number picks a base of the class that has been
reached, and the base stands for the next one. The climb passes the given positions and ends at
the given class. -/
inductive Climbs (classes : List Class) :
    Class → List Nat → List (Fin classes.length) → Class → Prop
  /-- Without numbers the climb stays where it is. -/
  | here (c : Class) : Climbs classes c [] [] c
  /-- The first number picks a base that stands for a class, and the climb goes on there. -/
  | up {c : Class} {k : Nat} {base : Ast.BaseClause} {i : Fin classes.length} {ks : List Nat}
      {route : List (Fin classes.length)} {d : Class} :
      c.info.bases[k]? = some base → lookup? classes base.declared c.fullName = some i →
      Climbs classes (classes.get i) ks route d → Climbs classes c (k :: ks) (i :: route) d

/-- **The addresses above a class**: the climb along all numbers but the last is possible, and
the last picks a base of the class where it ends. -/
def IsAddress (classes : List Class) (c : Class) (ks : List Nat) : Prop :=
  ∃ below k route d base, ks = below ++ [k] ∧ Climbs classes c below route d ∧
    d.info.bases[k]? = some base

/-- **The edge at an address**: the route of the climb with the class that the last base stands
for, or the last base as a missing one of the class that declares it. -/
inductive Leads (classes : List Class) (c : Class) : List Nat → Edge classes → Prop
  /-- The last base stands for a class. -/
  | reached {ks : List Nat} {k : Nat} {route : List (Fin classes.length)} {d : Class}
      {base : Ast.BaseClause} {i : Fin classes.length} :
      Climbs classes c ks route d → d.info.bases[k]? = some base →
      lookup? classes base.declared d.fullName = some i →
      Leads classes c (ks ++ [k]) (.reached (route ++ [i]))
  /-- The last base stands for nothing. -/
  | missing {ks : List Nat} {k : Nat} {route : List (Fin classes.length)} {d : Class}
      {base : Ast.BaseClause} :
      Climbs classes c ks route d → d.info.bases[k]? = some base →
      lookup? classes base.declared d.fullName = none →
      Leads classes c (ks ++ [k]) (.missing ⟨Name.bare base.declared, d.fullName⟩)

section Step

variable {c : Class} {k : Nat} {base : Ast.BaseClause} {i : Fin classes.length} {ks : List Nat}

/-- An address begins with a number that picks a base, and goes on with an address above the
class that this base stands for. -/
theorem isAddress_cons :
    IsAddress classes c (k :: ks) ↔
      ∃ base, c.info.bases[k]? = some base ∧
        (ks = [] ∨ ∃ i, lookup? classes base.declared c.fullName = some i ∧
          IsAddress classes (classes.get i) ks) := by
  constructor
  · rintro ⟨_ | ⟨k', below⟩, last, route, d, base, hsplit, hclimb, hbase⟩
    · obtain ⟨rfl, rfl⟩ := List.cons.inj hsplit
      cases hclimb
      exact ⟨base, hbase, Or.inl rfl⟩
    · obtain ⟨rfl, rfl⟩ := List.cons.inj hsplit
      obtain _ | @⟨_, _, first, i, _, route, _, hfirst, hi, hrest⟩ := hclimb
      exact ⟨first, hfirst, Or.inr ⟨i, hi, below, last, route, d, base, rfl, hrest, hbase⟩⟩
  · rintro ⟨base, hbase, rfl | ⟨i, hi, below, last, route, d, base', rfl, hclimb, hbase'⟩⟩
    · exact ⟨[], k, [], c, base, rfl, .here c, hbase⟩
    · exact ⟨k :: below, last, i :: route, d, base', rfl, .up hbase hi hclimb, hbase'⟩

/-- No address is empty. -/
theorem not_isAddress_nil : ¬IsAddress classes c [] := by
  rintro ⟨below, k, route, d, base, hsplit, -⟩
  simp at hsplit

/-- The edge at an address that goes on above a base leads there through the base. -/
theorem Leads.via {edge : Edge classes} (hbase : c.info.bases[k]? = some base)
    (hi : lookup? classes base.declared c.fullName = some i)
    (h : Leads classes (classes.get i) ks edge) : Leads classes c (k :: ks) (edge.via i) := by
  cases h with
  | reached hclimb hlast hj => exact .reached (.up hbase hi hclimb) hlast hj
  | missing hclimb hlast hj => exact .missing (.up hbase hi hclimb) hlast hj

end Step

/-- Numbers leave no choice: a climb along them passes the same positions and ends at the same
class. -/
theorem Climbs.unique {c d d' : Class} {ks : List Nat} {route route' : List (Fin classes.length)}
    (h : Climbs classes c ks route d) (h' : Climbs classes c ks route' d') :
    route = route' ∧ d = d' := by
  induction h generalizing route' with
  | here c =>
    cases h'
    exact ⟨rfl, rfl⟩
  | up hbase hi _ ih =>
    obtain _ | ⟨hbase', hi', hrest⟩ := h'
    obtain rfl := Option.some.inj (hbase.symm.trans hbase')
    obtain rfl := Option.some.inj (hi.symm.trans hi')
    obtain ⟨rfl, rfl⟩ := ih hrest
    exact ⟨rfl, rfl⟩

/-- What leads to an edge: a climb, and a last base whose lookup decides the edge. -/
theorem leads_iff {c : Class} {ks : List Nat} {edge : Edge classes} :
    Leads classes c ks edge ↔
      ∃ below k route d base, ks = below ++ [k] ∧ Climbs classes c below route d ∧
        d.info.bases[k]? = some base ∧
        edge = match lookup? classes base.declared d.fullName with
          | none => .missing ⟨Name.bare base.declared, d.fullName⟩
          | some i => .reached (route ++ [i]) := by
  constructor
  · rintro (⟨hclimb, hbase, hi⟩ | ⟨hclimb, hbase, hi⟩)
    · exact ⟨_, _, _, _, _, rfl, hclimb, hbase, by rw [hi]⟩
    · exact ⟨_, _, _, _, _, rfl, hclimb, hbase, by rw [hi]⟩
  · rintro ⟨below, k, route, d, base, rfl, hclimb, hbase, rfl⟩
    cases hi : lookup? classes base.declared d.fullName with
    | none => exact .missing hclimb hbase hi
    | some i => exact .reached hclimb hbase hi

/-- **There is one edge at each address.** -/
theorem existsUnique_leads {c : Class} {ks : List Nat} (h : IsAddress classes c ks) :
    ∃! edge, Leads classes c ks edge := by
  obtain ⟨below, k, route, d, base, rfl, hclimb, hbase⟩ := h
  refine ⟨_, leads_iff.mpr ⟨below, k, route, d, base, rfl, hclimb, hbase, rfl⟩, fun edge h => ?_⟩
  obtain ⟨below', k', route', d', base', hsplit, hclimb', hbase', rfl⟩ := leads_iff.mp h
  obtain ⟨rfl, hlast⟩ := List.append_inj' hsplit rfl
  obtain rfl := List.singleton_inj.mp hlast
  obtain ⟨rfl, rfl⟩ := hclimb.unique hclimb'
  obtain rfl := Option.some.inj (hbase.symm.trans hbase')
  rfl

/-! ### Listing the addresses -/

/-- The addresses that begin with the number of a base, where `above` has the addresses above
each position. -/
def addressesFrom (classes : List Class) (above : Fin classes.length → List (List Nat))
    (fromName : String) (numbered : Ast.BaseClause × Nat) : List (List Nat) :=
  match lookup? classes numbered.1.declared fromName with
  | none => [[numbered.2]]
  | some i => [numbered.2] :: (above i).map (numbered.2 :: ·)

/-- The addresses above a class, one base after the other. -/
def addressesOver (classes : List Class) (above : Fin classes.length → List (List Nat))
    (c : Class) : List (List Nat) :=
  c.info.bases.zipIdx.flatMap (addressesFrom classes above c.fullName)

variable {above : Fin classes.length → List (List Nat)}

theorem mem_addressesFrom {fromName : String} {base : Ast.BaseClause} {k : Nat} {ks : List Nat} :
    ks ∈ addressesFrom classes above fromName (base, k) ↔
      ∃ rest, ks = k :: rest ∧
        (rest = [] ∨ ∃ i, lookup? classes base.declared fromName = some i ∧ rest ∈ above i) := by
  rw [addressesFrom]
  cases lookup? classes base.declared fromName with
  | none => simp
  | some i =>
    simp only [List.mem_cons, List.mem_map, Option.some.injEq, exists_eq_left']
    grind

theorem mem_addressesOver {c : Class} {ks : List Nat} :
    ks ∈ addressesOver classes above c ↔
      ∃ base k, c.info.bases[k]? = some base ∧
        ks ∈ addressesFrom classes above c.fullName (base, k) := by
  simp [addressesOver, List.mem_zipIdx_iff_getElem?]

/-- The addresses that begin with the number of one base increase, if those above it do. -/
theorem pairwise_addressesFrom {fromName : String} {base : Ast.BaseClause} {k : Nat}
    (habove : ∀ i, lookup? classes base.declared fromName = some i →
      (above i).Pairwise (· < ·) ∧ [] ∉ above i) :
    (addressesFrom classes above fromName (base, k)).Pairwise (· < ·) := by
  rw [addressesFrom]
  cases hi : lookup? classes base.declared fromName with
  | none => exact List.pairwise_singleton _ _
  | some i =>
    obtain ⟨hincr, hnil⟩ := habove i hi
    refine List.pairwise_cons.mpr ⟨fun ks hks => ?_, ?_⟩
    · obtain ⟨rest, hrest, rfl⟩ := List.mem_map.mp hks
      cases rest with
      | nil => exact absurd hrest hnil
      | cons k' rest => exact List.cons_lt_cons_self.mpr (List.nil_lt_cons _ _)
    · exact hincr.map _ fun _ _ hlt => List.cons_lt_cons_self.mpr hlt

/-- Addresses that begin with the numbers of different bases stand in the order of the bases. -/
theorem pairwise_addressesOver {c : Class}
    (habove : ∀ i, IsBase classes c i → (above i).Pairwise (· < ·) ∧ [] ∉ above i) :
    (addressesOver classes above c).Pairwise (· < ·) := by
  refine List.pairwise_flatMap.mpr ⟨fun numbered hmem => ?_, ?_⟩
  · have hbase := List.mem_zipIdx_iff_getElem?.mp hmem
    exact pairwise_addressesFrom fun i hi => habove i ⟨_, List.mem_of_getElem? hbase, hi⟩
  · have hnumbers : c.info.bases.zipIdx.Pairwise fun p q => p.2 < q.2 := by
      rw [← List.pairwise_map (f := Prod.snd) (R := (· < ·)), List.zipIdx_map_snd]
      exact List.pairwise_lt_range'
    refine hnumbers.imp fun {p q} hlt ks hks ks' hks' => ?_
    obtain ⟨rest, rfl, -⟩ := mem_addressesFrom.mp hks
    obtain ⟨rest', rfl, -⟩ := mem_addressesFrom.mp hks'
    exact List.cons_lt_cons_iff.mpr (Or.inl hlt)

/-! ### The edges at the addresses -/

/-- **A list of addresses numbers a list of edges above a class**: it increases, it has every
address above the class, and the edge at each address stands at the same place. -/
structure Numbers (classes : List Class) (c : Class) (addresses : List (List Nat))
    (found : List (Edge classes)) : Prop where
  /-- The addresses increase, so none of them comes twice. -/
  increasing : addresses.Pairwise (· < ·)
  /-- The addresses are all that there are. -/
  mem_iff : ∀ ks, ks ∈ addresses ↔ IsAddress classes c ks
  /-- Each address leads to the edge at its place. -/
  leads : List.Forall₂ (Leads classes c) addresses found

theorem leads_addressesFrom {edgesAbove : Fin classes.length → List (Edge classes)} {c : Class}
    {base : Ast.BaseClause} {k : Nat} (hbase : c.info.bases[k]? = some base)
    (habove : ∀ i, lookup? classes base.declared c.fullName = some i →
      List.Forall₂ (Leads classes (classes.get i)) (above i) (edgesAbove i)) :
    List.Forall₂ (Leads classes c) (addressesFrom classes above c.fullName (base, k))
      (edgesFrom classes edgesAbove c.fullName base) := by
  rw [addressesFrom]
  cases hi : lookup? classes base.declared c.fullName with
  | none =>
    rw [edgesFrom_of_none hi]
    exact .cons (.missing (.here c) hbase hi) .nil
  | some i =>
    rw [edgesFrom_of_some hi]
    refine .cons (.reached (.here c) hbase hi) ?_
    rw [List.forall₂_map_left_iff, List.forall₂_map_right_iff]
    exact (habove i hi).imp fun _ _ hleads => hleads.via hbase hi

/-- **Numbering an unfolding**: numberings of the edges above the bases of a class make one of the
edges above the class. -/
theorem numbers_edgesOver {edgesAbove : Fin classes.length → List (Edge classes)} {c : Class}
    (habove : ∀ i, IsBase classes c i → Numbers classes (classes.get i) (above i) (edgesAbove i)) :
    Numbers classes c (addressesOver classes above c) (edgesOver classes edgesAbove c) where
  increasing := pairwise_addressesOver fun i hi =>
    ⟨(habove i hi).increasing, fun hnil => not_isAddress_nil (((habove i hi).mem_iff []).mp hnil)⟩
  mem_iff ks := by
    rw [mem_addressesOver]
    cases ks with
    | nil => simp [mem_addressesFrom, not_isAddress_nil]
    | cons k rest =>
      rw [isAddress_cons]
      constructor
      · rintro ⟨base, k', hbase, hmem⟩
        obtain ⟨rest', hcons, hrest⟩ := mem_addressesFrom.mp hmem
        obtain ⟨rfl, rfl⟩ := List.cons.inj hcons
        refine ⟨base, hbase, hrest.imp_right ?_⟩
        rintro ⟨i, hi, hmem⟩
        exact ⟨i, hi, ((habove i ⟨base, List.mem_of_getElem? hbase, hi⟩).mem_iff _).mp hmem⟩
      · rintro ⟨base, hbase, hrest⟩
        refine ⟨base, k, hbase, mem_addressesFrom.mpr ⟨rest, rfl, hrest.imp_right ?_⟩⟩
        rintro ⟨i, hi, haddress⟩
        exact ⟨i, hi,
          ((habove i ⟨base, List.mem_of_getElem? hbase, hi⟩).mem_iff _).mpr haddress⟩
  leads := by
    -- number the bases on both sides
    have hbases : edgesOver classes edgesAbove c =
        c.info.bases.zipIdx.flatMap fun numbered =>
          edgesFrom classes edgesAbove c.fullName numbered.1 := by
      rw [edgesOver, ← List.flatMap_map Prod.fst, List.zipIdx_map_fst]
    have hsame : List.Forall₂ (fun p q => p = q ∧ c.info.bases[p.2]? = some p.1)
        c.info.bases.zipIdx c.info.bases.zipIdx :=
      List.forall₂_same.mpr fun p hp => ⟨rfl, List.mem_zipIdx_iff_getElem?.mp hp⟩
    rw [hbases, addressesOver]
    refine List.rel_flatMap hsame ?_
    rintro ⟨base, k⟩ _ ⟨rfl, hbase⟩
    exact leads_addressesFrom hbase fun i hi =>
      (habove i ⟨base, List.mem_of_getElem? hbase, hi⟩).leads

/-- **The edges above a class are the edges at its addresses**, one for each address, in
lexicographic order of the addresses. -/
theorem edges_enumerate {classes : List Class} {limit : Nat} {c : Class}
    {found : List (Edge classes)} (h : edges classes limit c = .ok found) :
    ∃ addresses, Numbers classes c addresses found ∧
      ∀ ks ∈ addresses, ∃! edge, Leads classes c ks edge := by
  have hnumbers : ∃ addresses, Numbers classes c addresses found := by
    refine edges_induction (P := fun c found => ∃ addresses, Numbers classes c addresses found)
      (fun c edgesAbove habove => ?_) (edges_eq_ok_iff.mp h)
    choose! above hnumbers using habove
    exact ⟨addressesOver classes above c, numbers_edgesOver hnumbers⟩
  obtain ⟨addresses, hnumbers⟩ := hnumbers
  exact ⟨addresses, hnumbers, fun ks hks => existsUnique_leads ((hnumbers.mem_iff ks).mp hks)⟩

/-- A class above two that share a base, with a missing base between them: the shared base is
reached twice. -/
theorem edges_enumerate_diamond :
    let classes := [sample "A" [], sample "B" ["A"], sample "C" ["::A"]]
    let found : List (Edge classes) :=
      [.reached [1], .reached [1, 0], .missing ⟨"Ghost", "D"⟩, .reached [2], .reached [2, 0]]
    edges classes 2 (sample "D" ["B", "::Ghost", "C"]) = .ok found ∧
      ∃ addresses, Numbers classes (sample "D" ["B", "::Ghost", "C"]) addresses found ∧
        ∀ ks ∈ addresses,
          ∃! edge, Leads classes (sample "D" ["B", "::Ghost", "C"]) ks edge :=
  ⟨rfl, edges_enumerate (show edges _ 2 _ = .ok _ from rfl)⟩

end Inheritance

end ClassAtlas
