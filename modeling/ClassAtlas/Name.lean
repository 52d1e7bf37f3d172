/-!
# Class names

A compiler may spell a class with or without the separator `::` in front, and it may repeat
it. Two spellings name the same class exactly when they agree once every leading separator
is gone: `ClassAtlas.Name.bare` removes them all, and `ClassAtlas.Name.same` compares what is
left.
-/

namespace ClassAtlas

namespace Name

/-- A list of characters without the separators `::` in front. A single colon stays. -/
def bareChars : List Char → List Char
  | ':' :: ':' :: r => bareChars r
  | s => s

/-- **The bare name**: a class name without the separators `::` in front. -/
def bare (name : String) : String :=
  String.ofList (bareChars name.toList)

/-- Two spellings name the same class when their bare names are equal. -/
def same (a b : String) : Bool :=
  bare a == bare b

theorem bareChars_bareChars (s : List Char) : bareChars (bareChars s) = bareChars s := by
  fun_induction bareChars s with
  | case1 r ih => exact ih
  | case2 s h =>
    unfold bareChars
    split
    · exact absurd rfl (h _)
    · rfl

/-- A bare name is its own bare name. -/
theorem bare_bare (name : String) : bare (bare name) = bare name := by
  simp [bare, bareChars_bareChars]

theorem not_isPrefix_bareChars (s : List Char) : ¬[':', ':'] <+: bareChars s := by
  fun_induction bareChars s with
  | case1 r ih => exact ih
  | case2 s h =>
    rintro ⟨r, rfl⟩
    exact h r rfl

/-- A bare name does not begin with a separator. -/
theorem not_isPrefix_bare (name : String) : ¬[':', ':'] <+: (bare name).toList := by
  rw [bare, String.toList_ofList]
  exact not_isPrefix_bareChars name.toList

/-- A name that does not begin with a separator is bare. -/
theorem bare_of_not_isPrefix {name : String} (h : ¬[':', ':'] <+: name.toList) :
    bare name = name := by
  have hchars : bareChars name.toList = name.toList := by
    unfold bareChars
    split
    · rename_i r hname
      exact absurd ⟨r, hname.symm⟩ h
    · rfl
  rw [bare, hchars, String.ofList_toList]

/-- **The bare names are those that do not begin with a separator.** -/
theorem bare_eq_self_iff {name : String} : bare name = name ↔ ¬[':', ':'] <+: name.toList :=
  ⟨fun h => h ▸ not_isPrefix_bare name, bare_of_not_isPrefix⟩

theorem same_iff {a b : String} : same a b = true ↔ bare a = bare b := by
  simp [same]

end Name

end ClassAtlas
