import ClassAtlas.Proofs.Walk.Transparency
/-!
# Classes that are repeated inside themselves

A compiler repeats every class inside itself, as a record of the same name. Such a record is meant
to open no class, so that what is below it belongs to the class around it. A walk recognises it by
the name that it keeps of the innermost class, which is bare, and compares that one with the name
of the record as it is declared. So of the spellings of a class name the walk recognises one only:
a record that repeats the class around it (`ClassAtlas.Walk.Repeats`) is passed through when its
name is bare, and when it has a separator in front, it opens a second class of the same name
(`ClassAtlas.Walk.opens_iff_of_repeats`).

How the class around it is spelled makes no difference. In particular a class that is repeated as it
is declared, with a separator both times, is not recognised
(`ClassAtlas.Walk.repetition_with_separator_opens`).
-/

namespace ClassAtlas

namespace Walk

variable {demangler : Demangler} {root : Ast.Node} {p q : List Nat} {collection : Collection}

/-! ### Repetitions -/

/-- **A record that repeats a class inside itself**: it has the name of the innermost class around
it, in some spelling. -/
structure Repeats (root : Ast.Node) (q p : List Nat) : Prop where
  /-- It is a record. -/
  kind : (root.nodeAt p).declKind = .record
  /-- The innermost class around it is the one that is opened at the first address. -/
  around : opener? root p = some q
  /-- Both names stand for the same class. -/
  same : Name.same (headAt root q).name (declaredName root p) = true

/-- The name that is kept of the class is the bare name of its repetition. -/
theorem Repeats.bare_eq (h : Repeats root q p) :
    Name.bare (declaredName root q) = Name.bare (declaredName root p) :=
  (Name.bare_bare _).symm.trans (Name.same_iff.mp h.same)

/-- **A repetition opens a class** exactly when its name begins with a separator. -/
theorem opens_iff_of_repeats (h : Repeats root q p) :
    Opens root p ↔ [':', ':'] <+: (declaredName root p).toList := by
  constructor
  · rintro ⟨-, name, hname, hnew⟩
    by_contra hplain
    refine hnew q h.around ?_
    rw [h.bare_eq, Name.bare_of_not_isPrefix hplain, (mem_properName_iff.mp hname).1]
  · intro hseparator
    have hne : declaredName root p ≠ "" := by
      intro hempty
      rw [hempty] at hseparator
      exact absurd hseparator (by decide)
    refine ⟨h.kind, _, mem_properName_iff.mpr ⟨rfl, hne⟩, fun r hr hbare => ?_⟩
    obtain rfl : q = r := Option.some.inj (h.around.symm.trans hr)
    rw [h.bare_eq, Name.bare_eq_self_iff] at hbare
    exact hbare hseparator

/-! ### Records that are passed through -/

/-- The root of a tree that is collected opens no class. -/
theorem not_opens_nil (h : collect demangler root = .ok collection) : ¬Opens root [] := by
  rintro ⟨hkind, -⟩
  have hunit : root.declKind = .record := hkind
  rw [(collect_eq_ok_iff.mp h).1] at hunit
  cases hunit

/-- **A record in a class that opens none itself** can be replaced by its children. -/
theorem collect_replaceAt_inner (h : collect demangler root = .ok collection)
    (hkind : (root.nodeAt p).declKind = .record) (haround : opener? root p = some q)
    (hopens : ¬Opens root p) :
    collect demangler (root.replaceAt p (root.nodeAt p).inner) = .ok collection := by
  have hp : root.Has p := Ast.Node.has_of_declKind (by rw [hkind]; decide)
  -- the class around it is not opened at the root, so the root is not its parent
  have hinner : (root.replaceAt p (root.nodeAt p).inner).inner ≠ [] := by
    obtain ⟨k, hsuffix⟩ := Ast.mem_ancestors_iff_exists.mp (mem_ancestors_of_opener? haround)
    match p, q with
    | _, [] => exact absurd (opens_of_opener? haround) (not_opens_nil h)
    | [], _ :: _ => simp at hsuffix
    | [_], _ :: _ => exact absurd hsuffix.length_le (by simp)
    | k :: l :: above, _ :: _ => exact Ast.Node.inner_replaceAt_cons_cons_ne_nil k l above _
  rw [← h]
  exact collect_replaceAt_of_not_member hp hopens
    (spaceName?_of_ne_scope (by rw [hkind]; decide)) (by rw [hkind]; decide) (by rw [hkind]; rfl)
    hinner

/-- **Repetitions without a separator dissolve.** When the classes of a tree are collected, a record
that repeats the innermost class around it and does not begin with a separator opens none of them:
its children lie in the class around it, and all is the same when they stand in its place. One that
begins with a separator opens a class too, of the same name, and its children lie in that one. -/
theorem repetitions_without_separator_dissolve {demangler : Demangler} {root : Ast.Node}
    {collection : Collection} (h : collect demangler root = .ok collection) :
    ∃ openings, Ast.Lists Ast.FinishesBefore (Opens root) openings ∧
      collection.classes = openings.map (classAt demangler root) ∧
      ∀ q p, Repeats root q p →
        (¬[':', ':'] <+: (declaredName root p).toList →
          p ∉ openings ∧ (∀ k, opener? root (k :: p) = some q) ∧
          collect demangler (root.replaceAt p (root.nodeAt p).inner) = .ok collection) ∧
        ([':', ':'] <+: (declaredName root p).toList →
          p ∈ openings ∧ (∀ k, opener? root (k :: p) = some p) ∧
          (headAt root p).name = (headAt root q).name) := by
  have hlists := lists_opens root
  obtain ⟨-, -, hcollection⟩ := collect_eq_ok_iff.mp h
  refine ⟨_, hlists, congrArg Collection.classes hcollection, fun q p hrepeats =>
    ⟨fun hplain => ?_, fun hseparator => ?_⟩⟩
  · have hopens : ¬Opens root p := mt (opens_iff_of_repeats hrepeats).mp hplain
    refine ⟨mt (hlists.mem_iff p).mp hopens, fun k => ?_, ?_⟩
    · rw [opener?_cons_of_not_opens hopens, hrepeats.around]
    · exact collect_replaceAt_inner h hrepeats.kind hrepeats.around hopens
  · have hopens : Opens root p := (opens_iff_of_repeats hrepeats).mpr hseparator
    exact ⟨(hlists.mem_iff p).mpr hopens, opener?_cons_of_opens hopens, hrepeats.bare_eq.symm⟩

/-- A class with two repetitions, of which the second one has a separator in front. -/
def repeating : Ast.Node where
  kind := "TranslationUnitDecl"
  inner := [
    { kind := "CXXRecordDecl", name := some "A", inner := [
      { kind := "CXXRecordDecl", name := some "A", inner := [
        { kind := "FieldDecl", name := some "first" }] },
      { kind := "CXXRecordDecl", name := some "::A", inner := [
        { kind := "FieldDecl", name := some "second" }] },
      { kind := "FieldDecl", name := some "last" }] }]

/-- The first repetition is passed through, and the second one takes its field away from the class
around it. -/
theorem repetitions_without_separator_dissolve_repeating :
    Repeats repeating [0] [0, 0] ∧ Repeats repeating [0] [1, 0] ∧
    ∃ collection openings, collect Demangler.silent repeating = .ok collection ∧
      (collection.classes.map fun c => (c.name, c.fields.map fun entry => entry.member.name)) =
        [("A", ["second"]), ("A", ["first", "last"])] ∧
      Ast.Lists Ast.FinishesBefore (Opens repeating) openings ∧
      collection.classes = openings.map (classAt Demangler.silent repeating) ∧
      [0, 0] ∉ openings ∧ [1, 0] ∈ openings ∧
      collect Demangler.silent
        (repeating.replaceAt [0, 0] (repeating.nodeAt [0, 0]).inner) = .ok collection := by
  have hfirst : Repeats repeating [0] [0, 0] := ⟨rfl, by decide, by decide⟩
  have hsecond : Repeats repeating [0] [1, 0] := ⟨rfl, by decide, by decide⟩
  have hcollect : collect Demangler.silent repeating = _ := collect_eq rfl (List.cons_ne_nil _ _)
  obtain ⟨openings, hopenings, hclasses, hrepeats⟩ :=
    repetitions_without_separator_dissolve hcollect
  obtain ⟨hnot, -, hreplaced⟩ := (hrepeats _ _ hfirst).1 (by decide)
  obtain ⟨hmem, -, -⟩ := (hrepeats _ _ hsecond).2 (by decide)
  exact ⟨hfirst, hsecond, _, openings, hcollect, rfl, hopenings, hclasses, hnot, hmem, hreplaced⟩

/-- A class that is declared and repeated with a separator in front. -/
def separated : Ast.Node where
  kind := "TranslationUnitDecl"
  inner := [
    { kind := "CXXRecordDecl", name := some "::A", inner := [
      { kind := "CXXRecordDecl", name := some "::A", inner := [
        { kind := "FieldDecl", name := some "inside" }] },
      { kind := "FieldDecl", name := some "x" }] }]

/-- **Not every repetition dissolves**: a class that is repeated in the spelling in which it is
declared is collected twice, and the field below its repetition is lost to it. -/
theorem repetition_with_separator_opens :
    Repeats separated [0] [0, 0] ∧ Opens separated [0, 0] ∧
    ∃ collection, collect Demangler.silent separated = .ok collection ∧
      (collection.classes.map fun c => (c.fullName, c.fields.map fun entry =>
        entry.member.name)) = [("A", ["inside"]), ("A", ["x"])] ∧
      collect Demangler.silent
        (separated.replaceAt [0, 0] (separated.nodeAt [0, 0]).inner) ≠ .ok collection := by
  refine ⟨⟨rfl, by decide, by decide⟩, by decide, _, rfl, rfl, fun hsame => ?_⟩
  have hlength := congrArg (fun found => found.classes.length) (Except.ok.inj hsame)
  exact absurd hlength (by decide)

end Walk

end ClassAtlas
