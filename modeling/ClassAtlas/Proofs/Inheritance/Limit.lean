import ClassAtlas.Inheritance.Resolution
import ClassAtlas.Proofs.Inheritance.Unfolding
/-!
# The limit on the depth of inheritance

When there are too many bases above a class, asking for its edges fails, and so does resolving
any list in which the class stands. The limit is exact: it is exceeded by a run of one base more
and by nothing else, wherever in the list and behind whichever other bases the run lies, and what
fits within a limit comes out the same within every greater one
(`ClassAtlas.Inheritance.limit_exact`).

The failure is about the class that was asked about, not the one at which the run became too
long. Resolving a list asks about its classes in order, so the failure names the first that
starts such a run.
-/

namespace ClassAtlas

namespace Inheritance

variable {classes : List Class} {limit : Nat}

/-! ### One class -/

theorem edges_eq_ok_iff {c : Class} {found : List (Edge classes)} :
    edges classes limit c = .ok found ↔ edgesWithin classes limit c = some found := by
  rw [edges]
  cases edgesWithin classes limit c <;> simp

/-- **Asking for the edges above a class fails** exactly when it starts a run that is too long,
and the failure names the class. -/
theorem edges_eq_error_iff {c : Class} {e : Error} :
    edges classes limit c = .error e ↔
      e = .tooDeep c.fullName limit ∧ HasRun classes c (limit + 1) := by
  rw [← edgesWithin_eq_none_iff, edges]
  cases edgesWithin classes limit c <;> simp [eq_comm]

/-! ### All classes of a list -/

/-- What is done to a result keeps a failure. -/
theorem map_eq_error_iff {α β : Type} {f : α → β} {x : Except Error α} {e : Error} :
    x.map f = .error e ↔ x = .error e := by
  cases x <;> simp [Except.map]

/-- The first class of a list comes first: if it fails, so does the list with its failure, and if
not, the list fares as the rest does. -/
theorem edgesOfAll_cons {c : Class} {cs : List Class} :
    edgesOfAll classes limit (c :: cs) =
      match edgesWithin classes limit c with
      | none => .error (.tooDeep c.fullName limit)
      | some above => (edgesOfAll classes limit cs).map (above :: ·) := by
  rw [edgesOfAll, edges]
  cases edgesWithin classes limit c with
  | none => rfl
  | some above => cases edgesOfAll classes limit cs <;> rfl

theorem edgesOfAll_eq_ok_iff {cs : List Class} {found : List (List (Edge classes))} :
    edgesOfAll classes limit cs = .ok found ↔
      List.Forall₂ (fun c above => edgesWithin classes limit c = some above) cs found := by
  induction cs generalizing found with
  | nil => cases found <;> simp [edgesOfAll]
  | cons c cs ih =>
    rw [edgesOfAll_cons, List.forall₂_cons_left_iff]
    cases edgesWithin classes limit c with
    | none => simp
    | some above =>
      cases hrest : edgesOfAll classes limit cs with
      | error e =>
        simp only [← ih, hrest]
        simp [Except.map]
      | ok rest =>
        simp only [← ih, hrest]
        simp [Except.map, eq_comm]

/-- **Asking for the edges above all classes fails** exactly when one of them starts a run that is
too long, and the failure is about the first such class. -/
theorem edgesOfAll_eq_error_iff {cs : List Class} {e : Error} :
    edgesOfAll classes limit cs = .error e ↔
      ∃ before c after, cs = before ++ c :: after ∧ e = .tooDeep c.fullName limit ∧
        HasRun classes c (limit + 1) ∧ ∀ b ∈ before, ¬HasRun classes b (limit + 1) := by
  induction cs with
  | nil => simp [edgesOfAll]
  | cons c cs ih =>
    rw [edgesOfAll_cons]
    cases hc : edgesWithin classes limit c with
    | none =>
      have hdeep : HasRun classes c (limit + 1) := edgesWithin_eq_none_iff.mp hc
      constructor
      · intro h
        exact ⟨[], c, cs, rfl, (Except.error.inj h).symm, hdeep, by simp⟩
      · rintro ⟨_ | ⟨b, before⟩, d, after, hsplit, rfl, -, hbefore⟩
        · rw [(List.cons.inj hsplit).1]
        · -- a later class is not the first to start such a run
          rw [(List.cons.inj hsplit).1] at hdeep
          exact absurd hdeep (hbefore b (by simp))
    | some above =>
      have hshallow : ¬HasRun classes c (limit + 1) := by
        rw [← isSome_edgesWithin_iff, hc]
        rfl
      refine map_eq_error_iff.trans (ih.trans ⟨?_, ?_⟩)
      · rintro ⟨before, d, after, rfl, he, hd, hbefore⟩
        exact ⟨c :: before, d, after, rfl, he, hd, List.forall_mem_cons.mpr ⟨hshallow, hbefore⟩⟩
      · rintro ⟨_ | ⟨b, before⟩, d, after, hsplit, he, hd, hbefore⟩
        · rw [(List.cons.inj hsplit).1] at hshallow
          exact absurd hd hshallow
        · exact ⟨before, d, after, (List.cons.inj hsplit).2, he, hd,
            (List.forall_mem_cons.mp hbefore).2⟩

/-! ### Resolving -/

/-- Resolving is asking for the edges above all classes, and then inheriting along them. -/
theorem resolve_eq_map :
    resolve limit classes = (edgesOfAll classes limit classes).map fun found =>
      { classes := List.zipWith (inherit classes) classes found
        unresolved := (found.flatten.filterMap Edge.missing?).eraseDups } := by
  rw [resolve]
  cases edgesOfAll classes limit classes <;> rfl

/-- Resolving succeeds as asking for the edges above all classes does. -/
theorem resolve_eq_ok_iff_edgesOfAll {r : Resolution} :
    resolve limit classes = .ok r ↔
      ∃ found, edgesOfAll classes limit classes = .ok found ∧
        r = { classes := List.zipWith (inherit classes) classes found
              unresolved := (found.flatten.filterMap Edge.missing?).eraseDups } := by
  rw [resolve]
  cases edgesOfAll classes limit classes <;>
    simp [bind, Except.bind, pure, Except.pure, eq_comm]

/-- Resolving fails as asking for the edges above all classes does. -/
theorem resolve_eq_error_iff_edgesOfAll {e : Error} :
    resolve limit classes = .error e ↔ edgesOfAll classes limit classes = .error e := by
  rw [resolve]
  cases edgesOfAll classes limit classes <;> simp [bind, Except.bind, pure, Except.pure]

/-- **The outcome of resolving**, position by position: the edges above each class are found within
the limit, each class inherits along its own, and the missing bases among all of them are
collected. -/
theorem resolve_eq_ok_iff {r : Resolution} :
    resolve limit classes = .ok r ↔
      ∃ above : Fin classes.length → List (Edge classes),
        (∀ i, edgesWithin classes limit (classes.get i) = some (above i)) ∧
          r = { classes := List.ofFn fun i => inherit classes (classes.get i) (above i)
                unresolved := ((List.ofFn above).flatten.filterMap Edge.missing?).eraseDups } := by
  rw [resolve_eq_ok_iff_edgesOfAll]
  constructor
  · rintro ⟨found, hfound, rfl⟩
    obtain ⟨hlen, habove⟩ := List.forall₂_iff_get.mp (edgesOfAll_eq_ok_iff.mp hfound)
    -- read the list of lists as a function of the position
    have hof : found = List.ofFn fun i : Fin classes.length => found.get (i.cast hlen) :=
      List.ext_getElem (by simp [hlen]) (by simp)
    refine ⟨fun i => found.get (i.cast hlen), fun i => habove i i.isLt (hlen ▸ i.isLt), ?_⟩
    rw [← hof]
    congr 1
    exact List.ext_getElem (by simp [hlen]) (by simp)
  · rintro ⟨above, habove, rfl⟩
    refine ⟨List.ofFn above, edgesOfAll_eq_ok_iff.mpr (List.forall₂_iff_get.mpr ⟨?_, ?_⟩), ?_⟩
    · rw [List.length_ofFn]
    · intro i hi hi'
      rw [List.get_ofFn]
      exact habove ⟨i, hi⟩
    · congr 1
      exact List.ext_getElem (by simp) (by simp)

/-- **Resolving fails** exactly when some class starts a run that is too long, and the failure is
about the first such class. -/
theorem resolve_eq_error_iff {e : Error} :
    resolve limit classes = .error e ↔
      ∃ before c after, classes = before ++ c :: after ∧ e = .tooDeep c.fullName limit ∧
        HasRun classes c (limit + 1) ∧ ∀ b ∈ before, ¬HasRun classes b (limit + 1) :=
  resolve_eq_error_iff_edgesOfAll.trans edgesOfAll_eq_error_iff

/-- **Resolving succeeds** exactly when no class of the list starts a run that is too long. -/
theorem exists_resolve_eq_ok_iff :
    (∃ r, resolve limit classes = .ok r) ↔ ∀ c ∈ classes, ¬HasRun classes c (limit + 1) := by
  constructor
  · rintro ⟨r, hr⟩ c hc
    obtain ⟨above, habove, -⟩ := resolve_eq_ok_iff.mp hr
    obtain ⟨i, hi, rfl⟩ := List.mem_iff_getElem.mp hc
    rw [← isSome_edgesWithin_iff]
    exact Option.isSome_iff_exists.mpr ⟨above ⟨i, hi⟩, habove ⟨i, hi⟩⟩
  · intro hshallow
    cases hr : resolve limit classes with
    | ok r => exact ⟨r, rfl⟩
    | error e =>
      obtain ⟨before, c, after, hsplit, -, hdeep, -⟩ := resolve_eq_error_iff.mp hr
      exact absurd hdeep (hshallow c (by simp [hsplit]))

/-- Resolving fails exactly when some class of the list starts a run that is too long. -/
theorem exists_resolve_eq_error_iff :
    (∃ e, resolve limit classes = .error e) ↔ ∃ c ∈ classes, HasRun classes c (limit + 1) := by
  constructor
  · rintro ⟨e, he⟩
    obtain ⟨before, c, after, hsplit, -, hdeep, -⟩ := resolve_eq_error_iff.mp he
    exact ⟨c, by simp [hsplit], hdeep⟩
  · rintro ⟨c, hc, hdeep⟩
    cases hr : resolve limit classes with
    | ok r => exact absurd hdeep (exists_resolve_eq_ok_iff.mp ⟨r, hr⟩ c hc)
    | error e => exact ⟨e, rfl⟩

/-- A greater limit changes no outcome. -/
theorem resolve_mono {limit' : Nat} (hle : limit ≤ limit') {r : Resolution}
    (h : resolve limit classes = .ok r) : resolve limit' classes = .ok r := by
  obtain ⟨above, habove, hr⟩ := resolve_eq_ok_iff.mp h
  exact resolve_eq_ok_iff.mpr ⟨above, fun i => edgesWithin_mono hle (habove i), hr⟩

/-- **The limit is exact.** Asking for the edges above any class fails exactly when the class
starts a run of one base more than the limit, and the failure names that class and the limit.
Resolving a list fails exactly when one of its classes starts such a run, and the failure names
the first of them. What resolving gives within a limit it gives within every greater one. -/
theorem limit_exact (classes : List Class) (limit : Nat) :
    (∀ c e, edges classes limit c = .error e ↔
      e = .tooDeep c.fullName limit ∧ HasRun classes c (limit + 1)) ∧
    ((∃ e, resolve limit classes = .error e) ↔ ∃ c ∈ classes, HasRun classes c (limit + 1)) ∧
    (∀ e, resolve limit classes = .error e ↔
      ∃ before c after, classes = before ++ c :: after ∧ e = .tooDeep c.fullName limit ∧
        HasRun classes c (limit + 1) ∧ ∀ b ∈ before, ¬HasRun classes b (limit + 1)) ∧
    ∀ r, resolve limit classes = .ok r →
      ∀ limit', limit ≤ limit' → resolve limit' classes = .ok r :=
  ⟨fun _ _ => edges_eq_error_iff, exists_resolve_eq_error_iff, fun _ => resolve_eq_error_iff,
    fun _ hr _ hle => resolve_mono hle hr⟩

/-- Three classes in a line: with room for one base the last of them fails, behind a base that is
missing, and with room for two the outcome is that with room for sixty-four. -/
theorem limit_exact_line :
    let line := [sample "A" [], sample "B" ["A"], sample "C" ["Ghost", "::B"]]
    resolve 1 line = .error (.tooDeep "C" 1) ∧
      ∃ r, resolve 2 line = .ok r ∧ resolve 64 line = .ok r := by
  refine ⟨?_, _, rfl, (limit_exact _ 2).2.2.2 _ rfl 64 (by decide)⟩
  refine ((limit_exact _ 1).2.2.1 _).mpr
    ⟨[sample "A" [], sample "B" ["A"]], sample "C" ["Ghost", "::B"], [], rfl, rfl,
      ⟨[1, 0], by decide, rfl⟩, fun b hb => ?_⟩
  rw [← isSome_edgesWithin_iff]
  revert b
  decide

end Inheritance

end ClassAtlas
