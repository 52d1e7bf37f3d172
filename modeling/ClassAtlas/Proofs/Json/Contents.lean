import ClassAtlas.Json.Record
import ClassAtlas.Proofs.Json.Scanning
/-!
# What values stand for

A value that is wanted as a text, a truth value, a number or a list stands for at most one of them,
and what it stands for is said here without a reader: `ClassAtlas.Json.IsText`,
`ClassAtlas.Json.IsBoolean`, `ClassAtlas.Json.IsCount`, `ClassAtlas.Json.IsOptional` and
`ClassAtlas.Json.IsListOf`. A reader agrees with such a relation (`ClassAtlas.Json.Reads`) when it
gives a result exactly for a complete value, and then what the value stands for. The readers for
scalars and lists do, and a reader that agrees on every value gives for a whole text what the value
spelt by it stands for (`ClassAtlas.Json.readDocument_eq_ok_iff`).
-/

namespace ClassAtlas

namespace Json

variable {α : Type}

/-! ### Texts -/

/-- **The characters that the pieces of a string stand for.** A unit of one of the two halves of the
surrogate range stands for a character only together with one of the other half. -/
inductive Contents : List Piece → List Char → Prop
  | nil : Contents [] []
  | plain {c : Char} {pieces : List Piece} {s : List Char} (rest : Contents pieces s) :
      Contents (.plain c :: pieces) (c :: s)
  | escaped {c : Char} {pieces : List Piece} {s : List Char} (rest : Contents pieces s) :
      Contents (.escaped c :: pieces) (c :: s)
  | unit {code : Nat} {pieces : List Piece} {s : List Char} (single : code < 0xD800 ∨ 0xDFFF < code)
      (rest : Contents pieces s) : Contents (.unit code :: pieces) (Char.ofNat code :: s)
  | pair {high low : Nat} {pieces : List Piece} {s : List Char}
      (isHigh : 0xD800 ≤ high ∧ high ≤ 0xDBFF) (isLow : 0xDC00 ≤ low ∧ low ≤ 0xDFFF)
      (rest : Contents pieces s) :
      Contents (.unit high :: .unit low :: pieces)
        (Char.ofNat (0x10000 + (high - 0xD800) * 0x400 + (low - 0xDC00)) :: s)

/-- A string that has its end holds the characters that its pieces stand for. -/
def Lexeme.Holds (l : Lexeme) (text : String) : Prop :=
  l.ending = .closed ∧ Contents l.pieces text.toList

theorem isHighSurrogate_iff {code : Nat} :
    isHighSurrogate code ↔ 0xD800 ≤ code ∧ code ≤ 0xDBFF := by
  simp [isHighSurrogate]

theorem isLowSurrogate_iff {code : Nat} : isLowSurrogate code ↔ 0xDC00 ≤ code ∧ code ≤ 0xDFFF := by
  simp [isLowSurrogate]

/-- A character in front of the characters that are found. -/
theorem cons_eq_ok_iff {x : Except Fault (List Char)} {c : Char} {s : List Char} :
    (do return c :: (← x)) = Except.ok (ε := Fault) s ↔ ∃ r, x = .ok r ∧ c :: r = s := by
  rw [bind_eq_ok_iff]
  simp [pure, Except.pure]

theorem joinPieces_unit {ending : StringEnd} {pieces : List Piece} {code : Nat}
    (hlow : ¬isLowSurrogate code) (hhigh : ¬isHighSurrogate code) :
    joinPieces ending (.unit code :: pieces) =
      (do return Char.ofNat code :: (← joinPieces ending pieces)) := by
  rw [joinPieces.eq_def]
  simp only [if_neg hlow, if_neg hhigh]

theorem contents_of_joinPieces {ending : StringEnd} {pieces : List Piece} {s : List Char}
    (h : joinPieces ending pieces = .ok s) : ending = .closed ∧ Contents pieces s := by
  induction pieces using joinPieces.induct generalizing s with
  | case1 =>
    rw [joinPieces, check_bind_eq_ok_iff, StringEnd.check_eq_ok_iff] at h
    obtain ⟨hclosed, h⟩ := h
    cases h
    exact ⟨hclosed, .nil⟩
  | case2 c pieces ih =>
    rw [joinPieces, cons_eq_ok_iff] at h
    obtain ⟨r, hr, rfl⟩ := h
    exact ⟨(ih hr).1, .plain (ih hr).2⟩
  | case3 c pieces ih =>
    rw [joinPieces, cons_eq_ok_iff] at h
    obtain ⟨r, hr, rfl⟩ := h
    exact ⟨(ih hr).1, .escaped (ih hr).2⟩
  | case4 code pieces hlow =>
    rw [joinPieces.eq_def] at h
    simp only [hlow] at h
    cases h
  | case5 high hnot hhigh low pieces hlow ih =>
    rw [joinPieces, if_neg hnot, if_pos hhigh, if_pos hlow, cons_eq_ok_iff] at h
    obtain ⟨r, hr, rfl⟩ := h
    exact ⟨(ih hr).1, .pair (isHighSurrogate_iff.mp hhigh) (isLowSurrogate_iff.mp hlow) (ih hr).2⟩
  | case6 high hnot hhigh low pieces hlow =>
    rw [joinPieces, if_neg hnot, if_pos hhigh, if_neg hlow] at h
    cases h
  | case7 high hnot hhigh =>
    rw [joinPieces, if_neg hnot, if_pos hhigh] at h
    cases h
  | case8 high hnot hhigh p pieces hp =>
    rw [joinPieces, if_neg hnot, if_pos hhigh] at h
    · cases h
    · exact hp
  | case9 code pieces hlow hhigh ih =>
    rw [joinPieces_unit hlow hhigh, cons_eq_ok_iff] at h
    obtain ⟨r, hr, rfl⟩ := h
    rw [isLowSurrogate_iff] at hlow
    rw [isHighSurrogate_iff] at hhigh
    exact ⟨(ih hr).1, .unit (by omega) (ih hr).2⟩

theorem Contents.joinPieces_eq {pieces : List Piece} {s : List Char} (h : Contents pieces s) :
    joinPieces .closed pieces = .ok s := by
  induction h with
  | nil => rfl
  | plain _ ih =>
    rw [joinPieces, cons_eq_ok_iff]
    exact ⟨_, ih, rfl⟩
  | escaped _ ih =>
    rw [joinPieces, cons_eq_ok_iff]
    exact ⟨_, ih, rfl⟩
  | @unit code _ _ hsingle _ ih =>
    have hlow : ¬isLowSurrogate code := by
      rw [isLowSurrogate_iff]
      omega
    have hhigh : ¬isHighSurrogate code := by
      rw [isHighSurrogate_iff]
      omega
    rw [joinPieces_unit hlow hhigh, cons_eq_ok_iff]
    exact ⟨_, ih, rfl⟩
  | @pair high low _ _ hhigh hlow _ ih =>
    have hnot : ¬isLowSurrogate high := by
      rw [isLowSurrogate_iff]
      omega
    rw [joinPieces, if_neg hnot, if_pos (isHighSurrogate_iff.mpr hhigh),
      if_pos (isLowSurrogate_iff.mpr hlow), cons_eq_ok_iff]
    exact ⟨_, ih, rfl⟩

/-- **The text of a string** is the one that it holds. -/
theorem Lexeme.text_eq_ok_iff {l : Lexeme} {text : String} : l.text = .ok text ↔ l.Holds text := by
  rw [Lexeme.text, map_eq_ok_iff, Lexeme.Holds]
  constructor
  · rintro ⟨s, hs, rfl⟩
    rw [String.toList_ofList]
    exact contents_of_joinPieces hs
  · rintro ⟨hclosed, hcontents⟩
    exact ⟨text.toList, hclosed ▸ hcontents.joinPieces_eq, String.ofList_toList⟩

/-! ### What is wanted -/

/-- A value that is a string of the given text. -/
inductive IsText : Tree → String → Prop
  | string {l : Lexeme} {text : String} (holds : l.Holds text) : IsText (.string l) text

/-- A value that is a truth value. -/
inductive IsBoolean : Tree → Bool → Prop
  | boolean (b : Bool) : IsBoolean (.boolean b) b

/-- A value that is a natural number of 64 bits, written by its digits alone. -/
inductive IsCount : Tree → Nat → Prop
  | digits {ds : List Char} (small : Nat.ofDigitChars 10 ds 0 ≤ maxCount) :
      IsCount (.number ⟨false, ds, none, none⟩) (Nat.ofDigitChars 10 ds 0)

/-- A value that may be absent, which `null` says and nothing else does. -/
inductive IsOptional (stands : Tree → α → Prop) : Tree → Option α → Prop
  | none : IsOptional stands .null none
  | some {t : Tree} {a : α} (ne : t ≠ .null) (h : stands t a) : IsOptional stands t (some a)

/-- A value that is a list with an element for each of the given ones. -/
inductive IsListOf (stands : Tree → α → Prop) : Tree → List α → Prop
  | list {items : List Tree} {as : List α} (h : List.Forall₂ stands items as) :
      IsListOf stands (.list items .closed) as

/-- **A reader agrees with what a value stands for**: it gives a result exactly for a complete
value, and the one that the value stands for. -/
def Reads (read : Tree → Except Fault α) (stands : Tree → α → Prop) (t : Tree) : Prop :=
  ∀ a, read t = .ok a ↔ t.skip = .ok () ∧ stands t a

section Reads

variable {read : Tree → Except Fault α} {stands : Tree → α → Prop} {t : Tree} {a b : α}

/-- A complete value stands for one thing only. -/
theorem Reads.unique (h : Reads read stands t) (hskip : t.skip = .ok ()) (ha : stands t a)
    (hb : stands t b) : a = b :=
  Except.ok.inj (((h a).mpr ⟨hskip, ha⟩).symm.trans ((h b).mpr ⟨hskip, hb⟩))

/-- A text is read under any name of its type. -/
theorem reads_readText {wanted : Wanted} : Reads (Tree.readText wanted) IsText t := by
  intro text
  cases t with
  | string l =>
    rw [Tree.readText, Lexeme.text_eq_ok_iff, Tree.skip_string_eq_ok_iff]
    exact ⟨fun h => ⟨h.1, .string h⟩, fun ⟨_, .string h⟩ => h⟩
  | _ => exact ⟨nofun, fun ⟨_, h⟩ => nomatch h⟩

theorem reads_readString : Reads Tree.readString IsText t :=
  reads_readText

theorem reads_readBool : Reads Tree.readBool IsBoolean t := by
  intro b
  cases t with
  | boolean value =>
    exact ⟨fun h => ⟨rfl, Except.ok.inj h ▸ .boolean value⟩, fun ⟨_, .boolean _⟩ => rfl⟩
  | _ => exact ⟨nofun, fun ⟨_, h⟩ => nomatch h⟩

/-- Digits never lower the value that has been gathered. -/
theorem le_ofDigitChars (value : Nat) (ds : List Char) :
    value ≤ Nat.ofDigitChars 10 ds value := by
  induction ds generalizing value with
  | nil => rw [Nat.ofDigitChars_nil]
  | cons d ds ih =>
    rw [Nat.ofDigitChars_cons]
    exact Nat.le_trans (by omega) (ih _)

/-- **All digits are gathered** exactly when their value does not exceed the limit. -/
theorem gather_eq_iff {limit value n : Nat} {ds : List Char} (h : value ≤ limit) :
    gather limit value ds = (n, []) ↔ Nat.ofDigitChars 10 ds value = n ∧ n ≤ limit := by
  induction ds generalizing value with
  | nil =>
    simp only [gather, Nat.ofDigitChars_nil, Prod.mk.injEq, and_true]
    exact ⟨fun hn => ⟨hn, hn ▸ h⟩, fun hn => hn.1⟩
  | cons d ds ih =>
    rw [gather, Nat.ofDigitChars_cons, Nat.mul_comm 10 value, ← digitValue]
    by_cases hnext : value * 10 + digitValue d ≤ limit
    · rw [if_pos hnext, ih hnext]
    · rw [if_neg hnext]
      have hle := le_ofDigitChars (value * 10 + digitValue d) ds
      constructor
      · rintro ⟨⟩
      · rintro ⟨rfl, hn⟩
        omega

/-- A floating-point number is no integer. -/
theorem floatingFound_ne_integer {negative : Bool} {significand : Nat} {exponent i : Int} :
    floatingFound negative significand exponent ≠ .ok (.integer i) := by
  rw [floatingFound]
  split
  · simp [signed]
  · simp

/-- With an exponent a number is a floating-point number. -/
theorem found_ne_integer_of_exponent {numeral : Numeral} {exponent : Bool × List Char}
    (h : numeral.exponent = some exponent) {i : Int} : numeral.found ≠ .ok (.integer i) := by
  obtain ⟨down, digits⟩ := exponent
  simp only [Numeral.found, h]
  split
  · exact floatingFound_ne_integer
  · split_ifs <;> simp [signed]

/-- **A number is a natural number** exactly when it is written by digits that have such a value. -/
theorem found_eq_count_iff {numeral : Numeral} {n : Nat} :
    numeral.found = .ok (.integer n) ↔ IsCount (.number numeral) n := by
  have hcount : IsCount (.number numeral) n ↔ numeral.negative = false ∧
      numeral.fraction = none ∧ numeral.exponent = none ∧
        gather maxCount 0 numeral.whole = (n, []) := by
    rw [gather_eq_iff (Nat.zero_le _)]
    constructor
    · rintro ⟨hsmall⟩
      exact ⟨rfl, rfl, rfl, rfl, hsmall⟩
    · obtain ⟨negative, whole, fraction, exponent⟩ := numeral
      rintro ⟨rfl, rfl, rfl, rfl, hsmall⟩
      exact .digits hsmall
  rw [hcount]
  rcases hexponent : numeral.exponent with - | exponent
  · rcases hfraction : numeral.fraction with - | digits
    · rcases hgather : gather maxCount 0 numeral.whole with ⟨significand, leftOut⟩
      simp only [Numeral.found, Numeral.significand, hexponent, hfraction, hgather]
      rcases leftOut with - | ⟨d, leftOut⟩
      · cases numeral.negative with
        | false => simp
        | true =>
          -- a negative integer is below zero, and the negative zero is no integer
          have hsign : ∀ m : Nat, 0 < m → -(m : Int) ≠ n := fun m hm => by omega
          simp only [Option.isSome_none, List.isEmpty_nil, Bool.not_true, Bool.or_self,
            Bool.false_eq_true, if_false, Bool.and_eq_true, decide_eq_true_eq]
          split_ifs with hrange
          · simpa using hsign significand hrange.1
          · simp [signed]
      · simp [floatingFound_ne_integer]
    · simp only [Numeral.found, Numeral.significand, hexponent, hfraction]
      simp [floatingFound_ne_integer]
  · simp [found_ne_integer_of_exponent hexponent]

theorem reads_readCount : Reads Tree.readCount IsCount t := by
  intro n
  cases t with
  | number numeral =>
    rw [Tree.readCount, bind_eq_ok_iff, ← found_eq_count_iff]
    constructor
    · rintro ⟨found, hfound, hn⟩
      split at hn
      · cases hn
        exact ⟨rfl, hfound⟩
      · cases hn
      · cases hn
    · rintro ⟨-, hfound⟩
      exact ⟨_, hfound, rfl⟩
  | _ => exact ⟨nofun, fun ⟨_, h⟩ => nomatch h⟩

theorem Reads.readOptional (h : Reads read stands t) :
    Reads (Tree.readOptional read) (IsOptional stands) t := by
  intro o
  by_cases hnull : t = .null
  · subst hnull
    constructor
    · rintro ⟨⟩
      exact ⟨rfl, .none⟩
    · rintro ⟨-, ⟨⟩ | ⟨hne, -⟩⟩
      · rfl
      · exact absurd rfl hne
  · have hread : Tree.readOptional read t = (read t).map some := by
      cases t with
      | null => exact absurd rfl hnull
      | _ => rfl
    rw [hread, map_eq_ok_iff]
    constructor
    · rintro ⟨a, ha, rfl⟩
      obtain ⟨hskip, ha⟩ := (h a).mp ha
      exact ⟨hskip, .some hnull ha⟩
    · rintro ⟨hskip, ⟨⟩ | ⟨-, ha⟩⟩
      · exact absurd rfl hnull
      · exact ⟨_, (h _).mpr ⟨hskip, ha⟩, rfl⟩

theorem ListEnd.check_eq_ok_iff {ending : ListEnd} : ending.check = .ok () ↔ ending = .closed := by
  cases ending <;> simp [ListEnd.check]

theorem readItems_eq_ok_iff {ending : ListEnd} {items : List Tree} {as : List α}
    (h : ∀ item ∈ items, Reads read stands item) :
    readItems read ending items = .ok as ↔
      ending = .closed ∧ (∀ item ∈ items, item.skip = .ok ()) ∧ List.Forall₂ stands items as := by
  induction items generalizing as with
  | nil =>
    rw [readItems, check_bind_eq_ok_iff, ListEnd.check_eq_ok_iff, List.forall₂_nil_left_iff]
    simp [pure, Except.pure, eq_comm]
  | cons item items ih =>
    obtain ⟨hitem, hitems⟩ := List.forall_mem_cons.mp h
    rw [readItems, bind_eq_ok_iff, List.forall_mem_cons, List.forall₂_cons_left_iff]
    simp only [bind_eq_ok_iff, ih hitems, hitem _]
    constructor
    · rintro ⟨a, ⟨hskip, ha⟩, as, ⟨hclosed, hskips, has⟩, ⟨⟩⟩
      exact ⟨hclosed, ⟨hskip, hskips⟩, a, as, ha, has, rfl⟩
    · rintro ⟨hclosed, ⟨hskip, hskips⟩, a, as, ha, has, rfl⟩
      exact ⟨a, ⟨hskip, ha⟩, as, ⟨hclosed, hskips, has⟩, rfl⟩

theorem reads_readList (h : ∀ item ∈ t.parts, Reads read stands item) :
    Reads (Tree.readList read) (IsListOf stands) t := by
  intro as
  cases t with
  | list items ending =>
    have hitems : ∀ item ∈ items, Reads read stands item := h
    rw [Tree.readList, readItems_eq_ok_iff hitems, Tree.skip_list_eq_ok_iff]
    constructor
    · rintro ⟨rfl, hskips, has⟩
      exact ⟨⟨hskips, rfl⟩, .list has⟩
    · rintro ⟨⟨hskips, -⟩, ⟨has⟩⟩
      exact ⟨rfl, hskips, has⟩
  | _ => exact ⟨nofun, fun ⟨_, h⟩ => nomatch h⟩

/-- **A whole text is read** as what the value stands for that it spells. -/
theorem readDocument_eq_ok_iff (h : ∀ t, Reads read stands t) {text : String} {a : α} :
    readDocument read text = .ok a ↔ ∃ t, IsDocument text.toList t ∧ stands t a := by
  simp only [← scan_eq_iff, readDocument, bind_eq_ok_iff, h _ _]
  constructor
  · rintro ⟨b, ⟨hskip, hb⟩, hend⟩
    split_ifs at hend with htrailing
    cases hend
    refine ⟨_, ⟨?_, hskip⟩, hb⟩
    rw [Bool.not_eq_true] at htrailing
    rw [← htrailing]
  · rintro ⟨t, ⟨hscan, hskip⟩, ha⟩
    rw [hscan]
    exact ⟨a, ⟨hskip, ha⟩, rfl⟩

end Reads

end Json

end ClassAtlas
