import Mathlib.Data.List.TakeWhile
import Mathlib.Tactic.IntervalCases
import ClassAtlas.Json.Scan
import ClassAtlas.Proofs.Json.Grammar
/-!
# Scanning blanks, words, numbers and strings

For each scanning function below the level of a value: what it finds is spelt by the characters it
takes, and what is spelt in front of a text is found there. The second needs a word about what
follows only for numbers, which go on as long as they can (`ClassAtlas.Json.EndsNumber`).
-/

namespace ClassAtlas

namespace Json

variable {s r : List Char} {c : Char}

@[simp] theorem Rest.trans_val (q : Rest s) (p : Rest q.val) : (q.trans p).val = p.val := rfl

@[simp] theorem Rest.widen_val {t : List Char} (h : s.length ≤ t.length) (q : Rest s) :
    (q.widen h).val = q.val := rfl

/-! ### Runs -/

/-- A text is cut in two after the characters in front that have a property exactly when all
characters of the first part have it and the first of the second part has not. -/
theorem takeWhile_dropWhile_iff {p : Char → Bool} {run : List Char} :
    s.takeWhile p = run ∧ s.dropWhile p = r ↔
      s = run ++ r ∧ (∀ c ∈ run, p c) ∧ ∀ c ∈ r.head?, p c = false := by
  constructor
  · rintro ⟨rfl, rfl⟩
    refine ⟨List.takeWhile_append_dropWhile.symm, fun c => List.mem_takeWhile_imp, fun c hc => ?_⟩
    have hne : s.dropWhile p ≠ [] := fun hnil => by
      rw [hnil] at hc
      cases hc
    rw [List.head?_eq_some_head hne, Option.mem_some_iff] at hc
    exact hc ▸ List.head_dropWhile_not p hne
  · rintro ⟨rfl, hrun, hr⟩
    rw [List.takeWhile_append_of_pos hrun, List.dropWhile_append_of_pos hrun]
    cases r with
    | nil => exact ⟨by simp, rfl⟩
    | cons c r =>
      have hc : ¬p c := by simp [hr c rfl]
      rw [List.takeWhile_cons_of_neg hc, List.dropWhile_cons_of_neg hc, List.append_nil]
      exact ⟨rfl, rfl⟩

/-! ### Blanks and words -/

theorem isSpace_iff : isSpace c ↔ c = ' ' ∨ c = '\t' ∨ c = '\n' ∨ c = '\r' := by
  simp [isSpace, or_assoc]

theorem isBlank_iff : IsBlank s ↔ ∀ c ∈ s, isSpace c := by
  simp only [IsBlank, isSpace_iff]

/-- **A text goes on after its blanks** with a character that is none. -/
theorem skipSpace_eq_iff :
    skipSpace s = r ↔
      ∃ blank, s = blank ++ r ∧ IsBlank blank ∧ ∀ c ∈ r.head?, isSpace c = false := by
  simp only [isBlank_iff, ← takeWhile_dropWhile_iff]
  exact ⟨fun h => ⟨_, rfl, h⟩, fun ⟨_, _, h⟩ => h⟩

theorem skipSpace_eq_nil_iff : skipSpace s = [] ↔ IsBlank s := by
  simp [skipSpace_eq_iff]

theorem skipSpace_eq_cons_iff :
    skipSpace s = c :: r ↔ ∃ blank, s = blank ++ c :: r ∧ IsBlank blank ∧ isSpace c = false := by
  simp [skipSpace_eq_iff]

theorem skipSpace_append {blank : List Char} (h : IsBlank blank) (hc : isSpace c = false)
    (r : List Char) : skipSpace (blank ++ c :: r) = c :: r :=
  skipSpace_eq_cons_iff.mpr ⟨blank, rfl, h, hc⟩

theorem matchWord_eq_ok_iff {word s : List Char} {q : Rest s} :
    matchWord word s = .ok q ↔ s = word ++ q.val := by
  induction word generalizing s with
  | nil =>
    rw [matchWord, Except.ok.injEq, List.nil_append]
    exact ⟨fun h => h ▸ rfl, fun h => Subtype.ext h⟩
  | cons w word ih =>
    cases s with
    | nil => simp [matchWord]
    | cons c s =>
      rw [matchWord, List.cons_append, List.cons.injEq]
      split_ifs with hc
      · constructor
        · intro h
          split at h
          next p hp =>
            cases h
            exact ⟨hc, ih.mp hp⟩
          next => cases h
        · rintro ⟨-, h⟩
          have hp : matchWord word s = .ok ⟨q.val, by simp [h]⟩ := ih.mpr h
          rw [hp]
          rfl
      · exact ⟨fun h => (by cases h), fun h => absurd h.1 hc⟩

/-- A word is found where it stands. -/
theorem scanWord_append (word : List Char) (found : Tree) (s : List Char) :
    scanWord word found (word ++ s) = (found, ⟨s, by simp⟩) := by
  have h : matchWord word (word ++ s) = .ok ⟨s, by simp⟩ := matchWord_eq_ok_iff.mpr rfl
  rw [scanWord, h]

/-- A word that is found stands there. -/
theorem eq_append_of_scanWord {word : List Char} {found : Tree}
    (h : (scanWord word found s).1.skip = .ok ()) :
    (scanWord word found s).1 = found ∧ s = word ++ (scanWord word found s).2.val := by
  revert h
  rw [scanWord]
  split
  next q hq => exact fun _ => ⟨rfl, matchWord_eq_ok_iff.mp hq⟩
  next => exact nofun

/-! ### Digits -/

/-- No digit stands in front. -/
def NoDigit (s : List Char) : Prop :=
  ∀ c ∈ s.head?, c.isDigit = false

/-- A run of digits is as long as it can be. -/
theorem scanDigits_eq_ok_iff {ds : List Char} {q : Rest s} :
    scanDigits s = .ok (ds, q) ↔ s = ds ++ q.val ∧ IsDigits ds ∧ NoDigit q.val := by
  have hrun : scanDigits s = .ok (ds, q) ↔
      ds ≠ [] ∧ s.takeWhile Char.isDigit = ds ∧ s.dropWhile Char.isDigit = q.val := by
    rw [scanDigits, takeDigits]
    split
    next hnil => simp +contextual [hnil]
    next d ds' hcons =>
      rw [Except.ok.injEq, Prod.mk.injEq, Subtype.ext_iff, hcons]
      exact ⟨fun h => ⟨h.1 ▸ List.cons_ne_nil d ds', h⟩, fun h => h.2⟩
  rw [hrun, takeWhile_dropWhile_iff, IsDigits, NoDigit]
  tauto

theorem isWhole_cons {d : Char} {ds : List Char} :
    IsWhole (d :: ds) ↔ d.isDigit ∧ (∀ e ∈ ds, e.isDigit) ∧ (d = '0' → ds = []) := by
  simp +contextual [IsWhole, IsDigits, and_assoc]

/-- The digits before the point are one zero or as long a run as there can be. -/
theorem scanWhole_eq_ok_iff {whole : List Char} {q : Rest s} :
    scanWhole c s = .ok (whole, q) ↔ c :: s = whole ++ q.val ∧ IsWhole whole ∧ NoDigit q.val := by
  have hrun : scanWhole c s = .ok (whole, q) ↔ c.isDigit ∧ ∃ ds, whole = c :: ds ∧
      (c = '0' → ds = []) ∧ s.takeWhile Char.isDigit = ds ∧ s.dropWhile Char.isDigit = q.val := by
    rw [scanWhole]
    split_ifs with hzero hnone hdigit
    · subst hzero
      have hnil : s.takeWhile Char.isDigit = [] := List.isEmpty_iff.mp hnone
      have hdrop := List.takeWhile_append_dropWhile (p := Char.isDigit) (l := s)
      rw [hnil, List.nil_append] at hdrop
      rw [Except.ok.injEq, Prod.mk.injEq, Subtype.ext_iff, hnil, hdrop]
      constructor
      · rintro ⟨rfl, h⟩
        exact ⟨rfl, [], rfl, fun _ => rfl, rfl, h⟩
      · rintro ⟨-, ds, rfl, -, rfl, h⟩
        exact ⟨rfl, h⟩
    · simp_all [takeDigits]
    · rw [Except.ok.injEq, Prod.mk.injEq, Subtype.ext_iff]
      constructor
      · rintro ⟨rfl, h⟩
        exact ⟨hdigit, _, rfl, fun h => absurd h hzero, rfl, h⟩
      · rintro ⟨-, ds, rfl, -, rfl, h⟩
        exact ⟨rfl, h⟩
    · simp [hdigit]
  simp only [hrun, takeWhile_dropWhile_iff]
  constructor
  · rintro ⟨hc, ds, rfl, hzero, heq, hds, hq⟩
    exact ⟨congrArg (c :: ·) heq, isWhole_cons.mpr ⟨hc, hds, hzero⟩, hq⟩
  · rintro ⟨heq, hwhole, hq⟩
    obtain ⟨d, ds, rfl⟩ := List.exists_cons_of_ne_nil hwhole.1.1
    obtain ⟨rfl, htail⟩ := List.cons.inj heq
    obtain ⟨hc, hds, hzero⟩ := isWhole_cons.mp hwhole
    exact ⟨hc, ds, rfl, hzero, htail, hds, hq⟩

/-! ### Numbers -/

theorem speltFraction_of_scanFraction {fraction : Option (List Char)} {q : Rest s}
    (h : scanFraction s = .ok (fraction, q)) :
    ∃ spelt, s = spelt ++ q.val ∧ SpeltFraction fraction spelt := by
  rw [scanFraction.eq_def] at h
  split at h
  next r =>
    split at h
    next ds p hdigits =>
      cases h
      obtain ⟨heq, hds, -⟩ := scanDigits_eq_ok_iff.mp hdigits
      exact ⟨'.' :: ds, congrArg ('.' :: ·) heq, .some hds⟩
    next => cases h
  next =>
    cases h
    exact ⟨[], rfl, .none⟩

theorem scanFraction_of_spelt {fraction : Option (List Char)} {spelt : List Char}
    (hs : s = spelt ++ r) (h : SpeltFraction fraction spelt) (hdigit : NoDigit r)
    (hpoint : '.' ∉ r.head?) : scanFraction s = .ok (fraction, ⟨r, by simp [hs]⟩) := by
  subst hs
  cases h with
  | none =>
    change scanFraction r = _
    rw [scanFraction.eq_def]
    split
    next => exact absurd rfl hpoint
    next => rfl
  | @some ds hds =>
    have hdigits : scanDigits (ds ++ r) = .ok (ds, ⟨r, by simp⟩) :=
      scanDigits_eq_ok_iff.mpr ⟨rfl, hds, hdigit⟩
    change scanFraction ('.' :: (ds ++ r)) = _
    rw [scanFraction, hdigits]
    rfl

theorem speltSign_of_scanSign {negative : Bool} {q : Rest s} (h : scanSign s = (negative, q)) :
    ∃ spelt, s = spelt ++ q.val ∧ SpeltSign negative spelt := by
  rw [scanSign.eq_def] at h
  split at h
  all_goals cases h
  · exact ⟨['+'], rfl, .plus⟩
  · exact ⟨['-'], rfl, .minus⟩
  · exact ⟨[], rfl, .none⟩

theorem scanSign_of_spelt {negative : Bool} {spelt ds : List Char}
    (hs : s = spelt ++ (ds ++ r)) (h : SpeltSign negative spelt) (hds : IsDigits ds) :
    scanSign s = (negative, ⟨ds ++ r, by simp [hs]⟩) := by
  subst hs
  cases h with
  | none =>
    obtain ⟨d, ds, rfl⟩ := List.exists_cons_of_ne_nil hds.1
    have hd : d.isDigit := hds.2 d List.mem_cons_self
    have hplus : d ≠ '+' := fun h => absurd (h ▸ hd) (by decide)
    have hminus : d ≠ '-' := fun h => absurd (h ▸ hd) (by decide)
    exact scanSign.eq_3 (d :: (ds ++ r)) (fun _ h => hplus (List.cons.inj h).1)
      fun _ h => hminus (List.cons.inj h).1
  | plus => rfl
  | minus => rfl

theorem speltExponent_of_scanExponent {exponent : Option (Bool × List Char)} {q : Rest s}
    (h : scanExponent s = .ok (exponent, q)) :
    ∃ spelt, s = spelt ++ q.val ∧ SpeltExponent exponent spelt := by
  cases s with
  | nil =>
    cases h
    exact ⟨[], rfl, .none⟩
  | cons c s =>
    rw [scanExponent] at h
    split_ifs at h with hletter
    · split at h
      next negative afterSign hsign =>
      split at h
      next ds p hdigits =>
        cases h
        obtain ⟨sign, hs, hspelt⟩ := speltSign_of_scanSign hsign
        obtain ⟨heq, hds, -⟩ := scanDigits_eq_ok_iff.mp hdigits
        refine ⟨c :: (sign ++ ds), ?_, .some hletter hspelt hds⟩
        calc c :: s = c :: (sign ++ (ds ++ p.val)) := by rw [← heq, ← hs]
          _ = c :: (sign ++ ds) ++ p.val := by rw [← List.append_assoc]; rfl
      next => cases h
    · cases h
      exact ⟨[], rfl, .none⟩

/-- **A number cannot go on** with what stands here. -/
def EndsNumber (s : List Char) : Prop :=
  ∀ c ∈ s.head?, c.isDigit = false ∧ c ≠ '.' ∧ c ≠ 'e' ∧ c ≠ 'E'

theorem endsNumber_nil : EndsNumber [] :=
  fun _ h => by cases h

theorem EndsNumber.noDigit (h : EndsNumber s) : NoDigit s :=
  fun c hc => (h c hc).1

theorem scanExponent_of_spelt {exponent : Option (Bool × List Char)} {spelt : List Char}
    (hs : s = spelt ++ r) (h : SpeltExponent exponent spelt) (hends : EndsNumber r) :
    scanExponent s = .ok (exponent, ⟨r, by simp [hs]⟩) := by
  subst hs
  cases h with
  | none =>
    cases r with
    | nil => rfl
    | cons c r =>
      obtain ⟨-, -, he, hE⟩ := hends c rfl
      change scanExponent (c :: r) = _
      rw [scanExponent, if_neg (by simp [he, hE])]
  | @some letter negative sign ds hletter hsign hds =>
    have hafter : scanSign (sign ++ ds ++ r) = (negative, ⟨ds ++ r, by simp⟩) :=
      scanSign_of_spelt (List.append_assoc _ _ _) hsign hds
    have hdigits : scanDigits (ds ++ r) = .ok (ds, ⟨r, by simp⟩) :=
      scanDigits_eq_ok_iff.mpr ⟨rfl, hds, hends.noDigit⟩
    change scanExponent (letter :: (sign ++ ds ++ r)) = _
    rw [scanExponent, if_pos hletter, hafter]
    simp only [hdigits]
    rfl

/-- **A number that is found is spelt there.** -/
theorem speltAs_of_scanNumeral (negative : Bool)
    (h : (scanNumeral negative c s).1.skip = .ok ()) :
    ∃ spelt, (if negative then ['-'] else []) ++ c :: s =
        spelt ++ (scanNumeral negative c s).2.val ∧
      (scanNumeral negative c s).1.SpeltAs spelt := by
  revert h
  rw [scanNumeral]
  split
  next => exact nofun
  next whole p hwhole =>
  split
  next => exact nofun
  next fraction o hfraction =>
  split
  next => exact nofun
  next exponent n hexponent =>
  intro
  obtain ⟨heq, hwhole, -⟩ := scanWhole_eq_ok_iff.mp hwhole
  obtain ⟨f, hp, hf⟩ := speltFraction_of_scanFraction hfraction
  obtain ⟨e, ho, he⟩ := speltExponent_of_scanExponent hexponent
  refine ⟨_, ?_, .number (.intro hwhole hf he)⟩
  have hs : c :: s = whole ++ (f ++ (e ++ n.val)) := by rw [← ho, ← hp, ← heq]
  simp [hs]

/-- Neither a digit nor a point begins what stands after the digits of a number. -/
theorem SpeltExponent.noDigit {exponent : Option (Bool × List Char)} {spelt : List Char}
    (h : SpeltExponent exponent spelt) (hends : EndsNumber r) :
    NoDigit (spelt ++ r) ∧ '.' ∉ (spelt ++ r).head? := by
  cases h with
  | none => exact ⟨hends.noDigit, fun hpoint => (hends _ hpoint).2.1 rfl⟩
  | some hletter _ _ =>
    rcases hletter with rfl | rfl
    · exact ⟨fun c hc => Option.some.inj hc ▸ rfl, fun h => by cases h⟩
    · exact ⟨fun c hc => Option.some.inj hc ▸ rfl, fun h => by cases h⟩

theorem SpeltFraction.noDigit {fraction : Option (List Char)} {spelt : List Char}
    (h : SpeltFraction fraction spelt) (hr : NoDigit r) : NoDigit (spelt ++ r) := by
  cases h with
  | none => exact hr
  | some _ => exact fun c hc => Option.some.inj hc ▸ rfl

/-- **A number that is spelt is found**, where it cannot go on. -/
theorem scanNumeral_of_speltAs {n : Numeral} {spelt : List Char} (h : n.SpeltAs spelt) :
    ∃ d ds, spelt = (if n.negative then ['-'] else []) ++ d :: ds ∧ d.isDigit ∧
      ∀ r, EndsNumber r → (scanNumeral n.negative d (ds ++ r)).1 = .number n ∧
        (scanNumeral n.negative d (ds ++ r)).2.val = r := by
  cases h with
  | @intro f e hwhole hfraction hexponent =>
    obtain ⟨d, ds, hds⟩ := List.exists_cons_of_ne_nil hwhole.1.1
    refine ⟨d, ds ++ (f ++ e), by simp [hds], hwhole.1.2 d (by simp [hds]), fun r hends => ?_⟩
    -- no part of a number could go on with the part behind it
    obtain ⟨hafter, hpoint⟩ := hexponent.noDigit hends
    have hw : scanWhole d (ds ++ (f ++ e) ++ r) = .ok (n.whole, ⟨f ++ (e ++ r), by simp⟩) :=
      scanWhole_eq_ok_iff.mpr ⟨by simp [hds], hwhole, hfraction.noDigit hafter⟩
    have hf : scanFraction (f ++ (e ++ r)) = .ok (n.fraction, ⟨e ++ r, by simp⟩) :=
      scanFraction_of_spelt rfl hfraction hafter hpoint
    have he : scanExponent (e ++ r) = .ok (n.exponent, ⟨r, by simp⟩) :=
      scanExponent_of_spelt rfl hexponent hends
    simp only [scanNumeral, hw, hf, he, Rest.trans_val, and_self]

/-! ### Strings -/

theorem escapeOf_eq_some_iff {letter : Char} :
    escapeOf letter = some c ↔ (letter, c) ∈ escapes := by
  constructor
  · intro h
    rw [escapeOf.eq_def] at h
    split at h
    all_goals cases h
    all_goals decide
  · intro h
    simp only [escapes, List.mem_cons, Prod.mk.injEq, List.not_mem_nil, or_false] at h
    rcases h with ⟨rfl, rfl⟩ | ⟨rfl, rfl⟩ | ⟨rfl, rfl⟩ | ⟨rfl, rfl⟩ | ⟨rfl, rfl⟩ | ⟨rfl, rfl⟩ |
      ⟨rfl, rfl⟩ | ⟨rfl, rfl⟩
    all_goals rfl

theorem hexDigit_eq_some_iff {n : Nat} : hexDigit c = some n ↔ IsHexDigit c n := by
  constructor
  · intro h
    -- the character is one of finitely many, and these are gone through by their codes
    have hc := Char.ofNat_toNat c
    rw [hexDigit] at h
    generalize c.toNat = m at h hc
    subst hc
    split_ifs at h with hdecimal hupper hlower
    · obtain ⟨hlo, hhi⟩ := hdecimal
      cases h
      interval_cases m
      all_goals exact Or.inl rfl
    · obtain ⟨hlo, hhi⟩ := hupper
      cases h
      interval_cases m
      all_goals exact Or.inr rfl
    · obtain ⟨hlo, hhi⟩ := hlower
      cases h
      interval_cases m
      all_goals exact Or.inl rfl
  · intro h
    have hn : n < 16 := by
      rcases h with h | h
      · exact (List.getElem?_eq_some_iff.mp h).1
      · exact (List.getElem?_eq_some_iff.mp h).1
    interval_cases n
    all_goals
      rcases h with h | h
      all_goals
        cases h
        rfl

theorem hexUnit_eq_some_iff {a b c d : Char} {code : Nat} :
    hexUnit a b c d = some code ↔ ∃ i j k l, IsHexDigit a i ∧ IsHexDigit b j ∧ IsHexDigit c k ∧
      IsHexDigit d l ∧ Nat.ofDigits 16 [l, k, j, i] = code := by
  have hvalue : ∀ i j k l : Nat,
      Nat.ofDigits 16 [l, k, j, i] = ((i * 16 + j) * 16 + k) * 16 + l := by
    intro i j k l
    simp only [Nat.ofDigits]
    norm_num
    omega
  simp only [← hexDigit_eq_some_iff, hexUnit, Option.bind_eq_bind, Option.bind_eq_some_iff,
    Option.pure_def, Option.some.injEq, hvalue]
  constructor
  · rintro ⟨i, hi, j, hj, k, hk, l, hl, rfl⟩
    exact ⟨i, j, k, l, hi, hj, hk, hl, rfl⟩
  · rintro ⟨i, j, k, l, hi, hj, hk, hl, rfl⟩
    exact ⟨i, hi, j, hj, k, hk, l, hl, rfl⟩

/-- **A string that is found with its end is spelt there.** -/
theorem speltPieces_of_scanString (h : (scanString s).1.ending = .closed) :
    ∃ body, s = body ++ '"' :: (scanString s).2.val ∧ SpeltPieces (scanString s).1.pieces body := by
  fun_induction scanString s with
  | case1 => cases h
  | case2 r => exact ⟨[], rfl, .nil⟩
  | case3 => cases h
  -- the scanner goes on in three cases only, one for each form of a piece
  | case4 a b c d r code hcode l q hr ih =>
    rw [hr] at ih
    obtain ⟨body, hbody, hpieces⟩ := ih h
    obtain ⟨i, j, k, m, hi, hj, hk, hm, rfl⟩ := hexUnit_eq_some_iff.mp hcode
    refine ⟨_, ?_, .cons (.unit hi hj hk hm) hpieces⟩
    exact congrArg (['\\', 'u', a, b, c, d] ++ ·) hbody
  | case5 => cases h
  | case6 r =>
    dsimp only [brokenString] at h
    split at h
    all_goals cases h
  | case7 e r _ _ c hc l q hr ih =>
    rw [hr] at ih
    obtain ⟨body, hbody, hpieces⟩ := ih h
    refine ⟨_, ?_, .cons (.escaped (escapeOf_eq_some_iff.mp hc)) hpieces⟩
    exact congrArg (['\\', e] ++ ·) hbody
  | case8 => cases h
  | case9 => cases h
  | case10 c r hquote hcut hunit hbroken hescape hcontrol l q hr ih =>
    rw [hr] at ih
    obtain ⟨body, hbody, hpieces⟩ := ih h
    have hbackslash : c ≠ '\\' := by
      intro hc
      cases r with
      | nil => exact hcut hc rfl
      | cons e r => exact hescape e r hc rfl
    refine ⟨_, ?_, .cons (.plain hquote hbackslash (Nat.le_of_not_lt hcontrol)) hpieces⟩
    exact congrArg ([c] ++ ·) hbody

/-- **A string that is spelt is found.** -/
theorem scanString_of_speltPieces {pieces : List Piece} {body : List Char}
    (h : SpeltPieces pieces body) (r : List Char) :
    (scanString (body ++ '"' :: r)).1 = ⟨pieces, .closed⟩ ∧
      (scanString (body ++ '"' :: r)).2.val = r := by
  induction h with
  | nil => exact ⟨rfl, rfl⟩
  | @cons p pieces s more hpiece _ ih =>
    rw [List.append_assoc]
    -- of the text behind the piece only what is found in it matters
    generalize more ++ '"' :: r = rest at ih
    obtain ⟨hlexeme, hrest⟩ := ih
    cases hpiece with
    | @plain c hquote hbackslash hcontrol =>
      have hscan : scanString (c :: rest) =
          ((scanString rest).1.cons (.plain c), (scanString rest).2.widen (by simp)) := by
        rw [scanString, if_neg (Nat.not_lt.mpr hcontrol)]
        · exact hquote
        · exact fun h _ => hbackslash h
        · exact fun _ _ _ _ _ h _ => hbackslash h
        · exact fun _ h _ => hbackslash h
        · exact fun _ _ h _ => hbackslash h
      rw [List.singleton_append, hscan]
      exact ⟨congrArg (Lexeme.cons _) hlexeme, hrest⟩
    | @escaped letter c hescape =>
      have hc := escapeOf_eq_some_iff.mpr hescape
      have hletter : letter ≠ 'u' := by
        rintro rfl
        cases hc
      have hscan : scanString ('\\' :: letter :: rest) =
          ((scanString rest).1.cons (.escaped c), (scanString rest).2.widen (by simp; omega)) := by
        rw [scanString, hc]
        · exact fun _ _ _ _ _ h _ => hletter h
        · exact hletter
      rw [List.cons_append, List.singleton_append, hscan]
      exact ⟨congrArg (Lexeme.cons _) hlexeme, hrest⟩
    | @unit a b c d i j k l hi hj hk hl =>
      have hcode := hexUnit_eq_some_iff.mpr ⟨i, j, k, l, hi, hj, hk, hl, rfl⟩
      have hscan : scanString ('\\' :: 'u' :: a :: b :: c :: d :: rest) =
          ((scanString rest).1.cons (.unit (Nat.ofDigits 16 [l, k, j, i])),
            (scanString rest).2.widen (by simp; omega)) := by
        rw [scanString, hcode]
      simp only [List.cons_append, List.nil_append]
      rw [hscan]
      exact ⟨congrArg (Lexeme.cons _) hlexeme, hrest⟩

end Json

end ClassAtlas
