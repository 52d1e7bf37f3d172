/-!
# Blank characters

Names, type spellings and the answers of a demangler are shown without the blanks around
them. `ClassAtlas.Text.isBlank` is the Unicode property `White_Space`, and
`ClassAtlas.Text.trim` removes such characters from both ends of a text. Each end is trimmed
at most once: doing it again changes nothing (`ClassAtlas.Text.trimStart_trimStart`,
`ClassAtlas.Text.trimEnd_trimEnd`), and so it is with both (`ClassAtlas.Text.trim_trim`).
-/

namespace ClassAtlas

namespace Text

/-- **Blank characters**: the code points with the Unicode property `White_Space`. -/
def isBlank (c : Char) : Bool :=
  let n := c.toNat
  (0x09 ≤ n && n ≤ 0x0D) || n == 0x20 || n == 0x85 || n == 0xA0 || n == 0x1680 ||
    (0x2000 ≤ n && n ≤ 0x200A) || n == 0x2028 || n == 0x2029 || n == 0x202F ||
    n == 0x205F || n == 0x3000

/-- A list of characters without the blanks in front. -/
def trimStart (s : List Char) : List Char :=
  s.dropWhile isBlank

/-- A list of characters without the blanks at the end. -/
def trimEnd (s : List Char) : List Char :=
  (trimStart s.reverse).reverse

/-- A text without the blanks around it. -/
def trim (s : String) : String :=
  String.ofList (trimEnd (trimStart s.toList))

/-! ### Trimming twice -/

theorem trimStart_eq_self_iff {s : List Char} :
    trimStart s = s ↔ ∀ c, s.head? = some c → isBlank c = false := by
  cases s with
  | nil => simp [trimStart]
  | cons c r =>
    rw [trimStart]
    by_cases h : isBlank c
    · have hlen : (r.dropWhile isBlank).length ≤ r.length :=
        (List.dropWhile_suffix isBlank).length_le
      simp only [List.dropWhile_cons, h, if_true, List.head?_cons, Option.some.injEq,
        forall_eq']
      exact ⟨fun he => absurd (congrArg List.length he) (by simp; omega), by simp⟩
    · simp [h]

theorem trimStart_trimStart (s : List Char) : trimStart (trimStart s) = trimStart s := by
  rw [trimStart_eq_self_iff]
  intro c hc
  induction s with
  | nil => simp [trimStart] at hc
  | cons d r ih =>
    by_cases h : isBlank d
    · exact ih (by simpa [trimStart, List.dropWhile_cons, h] using hc)
    · have : d = c := by simpa [trimStart, List.dropWhile_cons, h] using hc
      simpa [← this] using h

theorem trimEnd_trimEnd (s : List Char) : trimEnd (trimEnd s) = trimEnd s := by
  simp [trimEnd, trimStart_trimStart]

/-- Trimming the end keeps a beginning. -/
theorem trimEnd_isPrefix (s : List Char) : trimEnd s <+: s := by
  have h : (trimStart s.reverse).reverse <+: s.reverse.reverse :=
    List.reverse_prefix.mpr (List.dropWhile_suffix isBlank)
  rwa [List.reverse_reverse] at h

/-- A beginning of what starts with no blank starts with no blank. -/
theorem trimStart_trimEnd_trimStart (s : List Char) :
    trimStart (trimEnd (trimStart s)) = trimEnd (trimStart s) := by
  rw [trimStart_eq_self_iff]
  intro c hc
  obtain ⟨rest, hrest⟩ := trimEnd_isPrefix (trimStart s)
  refine trimStart_eq_self_iff.mp (trimStart_trimStart s) c ?_
  rw [← hrest, List.head?_append, hc, Option.some_or]

theorem trim_trim (s : String) : trim (trim s) = trim s := by
  rw [trim, trim, String.toList_ofList, trimStart_trimEnd_trimStart, trimEnd_trimEnd]

end Text

end ClassAtlas
