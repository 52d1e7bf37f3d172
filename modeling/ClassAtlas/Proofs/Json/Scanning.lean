import ClassAtlas.Proofs.Json.Skipping
import ClassAtlas.Proofs.Json.Steps
/-!
# Scanning finds what the grammar spells

The scanner takes every text and says what it spells as far as it makes sense; the grammar
(`ClassAtlas.Json.Tree.SpeltAs`) says which texts spell a value completely. A complete value that
the scanner finds is spelt by the characters it took (`ClassAtlas.Json.speltAs_of_scanValue`), and
a value that is spelt in front of a text is found there (`ClassAtlas.Json.Tree.SpeltAs.found`). Both
go through the values of a list and of an object: the first along the recursion of the scanner,
whose texts get shorter, the second along the derivation that spells the value.
`ClassAtlas.Json.scan_eq_iff` puts the two together for a whole text.
-/

namespace ClassAtlas

namespace Json

variable {s r : List Char} {c d : Char}

/-! ### What is found is spelt -/

theorem speltAs_of_scanWord {word : List Char} {found : Tree} (hfound : found.SpeltAs (c :: word))
    (h : (scanWord word found s).1.skip = .ok ()) :
    ∃ spelt, c :: s = spelt ++ (scanWord word found s).2.val ∧
      (scanWord word found s).1.SpeltAs spelt := by
  obtain ⟨heq, hs⟩ := eq_append_of_scanWord h
  refine ⟨c :: word, ?_, heq.symm ▸ hfound⟩
  rw [List.cons_append, ← hs]

theorem speltAs_of_scanNegative (h : (scanNegative s).1.skip = .ok ()) :
    ∃ spelt, '-' :: s = spelt ++ (scanNegative s).2.val ∧ (scanNegative s).1.SpeltAs spelt := by
  cases s with
  | nil => cases h
  | cons c s => exact speltAs_of_scanNumeral true h

theorem speltAs_of_scanString (h : (scanString s).1.ending = .closed) :
    ∃ spelt, '"' :: s = spelt ++ (scanString s).2.val ∧ (scanString s).1.SpeltAs spelt := by
  obtain ⟨body, hs, hpieces⟩ := speltPieces_of_scanString h
  have hclosed : (scanString s).1 = ⟨(scanString s).1.pieces, .closed⟩ := by rw [← h]
  refine ⟨'"' :: (body ++ ['"']), ?_, hclosed ▸ .intro hpieces⟩
  simp [← hs]

theorem cons_eq_append {inside : List Char} (h : s = inside ++ d :: r) :
    c :: s = c :: (inside ++ [d]) ++ r := by
  simp [h]

mutual

/-- **A complete value that is found is spelt there.** -/
theorem speltAs_of_scanValue {c : Char} {s : List Char} (h : (scanValue c s).1.skip = .ok ()) :
    ∃ spelt, c :: s = spelt ++ (scanValue c s).2.val ∧ (scanValue c s).1.SpeltAs spelt := by
  revert h
  rw [scanValue]
  split_ifs with hnull htrue hfalse hminus hdigit hquote hbracket hbrace
  · exact fun h => hnull ▸ speltAs_of_scanWord .null h
  · exact fun h => htrue ▸ speltAs_of_scanWord .true h
  · exact fun h => hfalse ▸ speltAs_of_scanWord .false h
  · exact fun h => hminus ▸ speltAs_of_scanNegative h
  · exact fun h => speltAs_of_scanNumeral false h
  · intro h
    obtain ⟨spelt, hs, hspelt⟩ := speltAs_of_scanString (Tree.skip_string_eq_ok_iff.mp h)
    exact ⟨spelt, hquote ▸ hs, .string hspelt⟩
  · intro h
    obtain ⟨hitems, hend⟩ := Tree.skip_list_eq_ok_iff.mp h
    obtain ⟨inside, hs, hinside⟩ := speltItems_of_scanItems hitems hend
    subst hbracket
    refine ⟨_, cons_eq_append hs, ?_⟩
    change (Tree.list (scanItems s).1 (scanItems s).2.1).SpeltAs _
    rw [hend]
    rcases hinside with ⟨hnil, hblank⟩ | hspelt
    · exact hnil ▸ .emptyList hblank
    · exact .list hspelt
  · intro h
    obtain ⟨hmembers, hend⟩ := Tree.skip_object_eq_ok_iff.mp h
    obtain ⟨inside, hs, hinside⟩ := speltMembers_of_scanMembers hmembers hend
    subst hbrace
    refine ⟨_, cons_eq_append hs, ?_⟩
    change (Tree.object (scanMembers s).1 (scanMembers s).2.1).SpeltAs _
    rw [hend]
    rcases hinside with ⟨hnil, hblank⟩ | hspelt
    · exact hnil ▸ .emptyObject hblank
    · exact .object hspelt
  · exact nofun
termination_by 3 * s.length + 1

theorem speltItems_of_scanItems {s : List Char}
    (hitems : ∀ item ∈ (scanItems s).1, item.skip = .ok ()) (hend : (scanItems s).2.1 = .closed) :
    ∃ inside, s = inside ++ ']' :: (scanItems s).2.2.val ∧
      ((scanItems s).1 = [] ∧ IsBlank inside ∨ SpeltItems (scanItems s).1 inside) := by
  rcases exists_of_scanItems hend with ⟨r, hr⟩ | ⟨c, r, hr, hc⟩
  · obtain ⟨blank, hs, hblank, -⟩ := skipSpace_eq_cons_iff.mp hr
    rw [scanItems_of_closed hr]
    exact ⟨blank, hs, Or.inl ⟨rfl, hblank⟩⟩
  · obtain ⟨blank, hs, hblank, -⟩ := skipSpace_eq_cons_iff.mp hr
    -- the first element begins behind the blanks, so the recursion is on a shorter text
    have hlen := length_lt_of_skipSpace hr
    rw [scanItems_of_item hr hc] at hitems hend ⊢
    obtain ⟨inside, hinside, hspelt⟩ := speltItems_of_scanItem hitems hend
    exact ⟨blank ++ inside, by simp [hs, hinside], Or.inr (hspelt blank hblank)⟩
termination_by 3 * s.length

theorem speltItems_of_scanItem {c : Char} {s : List Char}
    (hitems : ∀ item ∈ (scanItem c s).1, item.skip = .ok ()) (hend : (scanItem c s).2.1 = .closed) :
    ∃ inside, c :: s = inside ++ ']' :: (scanItem c s).2.2.val ∧
      ∀ blank, IsBlank blank → SpeltItems (scanItem c s).1 (blank ++ inside) := by
  rw [scanItem_eq] at hitems hend ⊢
  have hlen := (scanValue c s).2.property
  obtain ⟨hitem, hmore⟩ := List.forall_mem_cons.mp hitems
  obtain ⟨spelt, hs, hspelt⟩ := speltAs_of_scanValue hitem
  obtain ⟨inside, hinside, hrest⟩ := speltMoreItems_of_scanMoreItems hmore hend
  refine ⟨spelt ++ inside, ?_, fun blank hblank => ?_⟩
  · rw [hs, List.append_assoc]
    exact congrArg (spelt ++ ·) hinside
  · rw [← List.append_assoc]
    exact .cons hblank hspelt hrest
termination_by 3 * s.length + 2

theorem speltMoreItems_of_scanMoreItems {s : List Char}
    (hitems : ∀ item ∈ (scanMoreItems s).1, item.skip = .ok ())
    (hend : (scanMoreItems s).2.1 = .closed) :
    ∃ inside, s = inside ++ ']' :: (scanMoreItems s).2.2.val ∧
      SpeltMoreItems (scanMoreItems s).1 inside := by
  rcases exists_of_scanMoreItems hend with ⟨r, hr⟩ | ⟨r, d, q, hr, hq, hd⟩
  · obtain ⟨blank, hs, hblank, -⟩ := skipSpace_eq_cons_iff.mp hr
    rw [scanMoreItems_of_closed hr]
    exact ⟨blank, hs, .nil hblank⟩
  · obtain ⟨after, hs, hafter, -⟩ := skipSpace_eq_cons_iff.mp hr
    obtain ⟨before, hr', hbefore, -⟩ := skipSpace_eq_cons_iff.mp hq
    have hlen := length_lt_of_skipSpace hr
    have hlen' := length_lt_of_skipSpace hq
    rw [scanMoreItems_of_comma hr hq hd] at hitems hend ⊢
    obtain ⟨inside, hinside, hspelt⟩ := speltItems_of_scanItem hitems hend
    refine ⟨after ++ ',' :: (before ++ inside), ?_, .comma hafter (hspelt before hbefore)⟩
    simp [hs, hr', hinside]
termination_by 3 * s.length

theorem speltMembers_of_scanMembers {s : List Char}
    (hmembers : ∀ m ∈ (scanMembers s).1, m.1.ending = .closed ∧ m.2.skip = .ok ())
    (hend : (scanMembers s).2.1 = .closed) :
    ∃ inside, s = inside ++ '\x7d' :: (scanMembers s).2.2.val ∧
      ((scanMembers s).1 = [] ∧ IsBlank inside ∨ SpeltMembers (scanMembers s).1 inside) := by
  rcases exists_of_scanMembers hend with ⟨r, hr⟩ | ⟨r, hr⟩
  · obtain ⟨blank, hs, hblank, -⟩ := skipSpace_eq_cons_iff.mp hr
    rw [scanMembers_of_closed hr]
    exact ⟨blank, hs, Or.inl ⟨rfl, hblank⟩⟩
  · obtain ⟨blank, hs, hblank, -⟩ := skipSpace_eq_cons_iff.mp hr
    have hlen := length_lt_of_skipSpace hr
    rw [scanMembers_of_key hr] at hmembers hend ⊢
    obtain ⟨inside, hinside, hspelt⟩ := speltMembers_of_scanMember hmembers hend
    exact ⟨blank ++ inside, by simp [hs, hinside], Or.inr (hspelt blank hblank)⟩
termination_by 3 * s.length

theorem speltMembers_of_scanMember {s : List Char}
    (hmembers : ∀ m ∈ (scanMember s).1, m.1.ending = .closed ∧ m.2.skip = .ok ())
    (hend : (scanMember s).2.1 = .closed) :
    ∃ inside, '"' :: s = inside ++ '\x7d' :: (scanMember s).2.2.val ∧
      ∀ blank, IsBlank blank → SpeltMembers (scanMember s).1 (blank ++ inside) := by
  obtain ⟨q, d, p, hq, hp⟩ := exists_of_scanMember hend
  obtain ⟨hfst, hsnd, hrest⟩ := scanMember_of_colon hq hp
  -- the four lengths say that the value and what follows it are shorter than the text
  have hkeyLen := (scanString s).2.property
  have hlen := length_lt_of_skipSpace hq
  have hlen' := length_lt_of_skipSpace hp
  have hvalueLen := (scanValue d p).2.property
  rw [hfst] at hmembers
  obtain ⟨⟨hkey, hvalue⟩, hmore⟩ := List.forall_mem_cons.mp hmembers
  obtain ⟨k, hs, hk⟩ := speltAs_of_scanString hkey
  obtain ⟨beforeColon, hq, hbefore, -⟩ := skipSpace_eq_cons_iff.mp hq
  obtain ⟨afterColon, hp, hafter, -⟩ := skipSpace_eq_cons_iff.mp hp
  obtain ⟨spelt, hdp, hspelt⟩ := speltAs_of_scanValue hvalue
  obtain ⟨inside, hinside, hmore⟩ := speltMoreMembers_of_scanMoreMembers hmore (hsnd ▸ hend)
  refine ⟨k ++ beforeColon ++ ':' :: (afterColon ++ spelt ++ inside), ?_, fun blank hblank => ?_⟩
  · rw [hs, hq, hp, hdp, hinside, hrest]
    simp
  · rw [hfst, ← List.append_assoc, ← List.append_assoc]
    exact .cons hblank hk hbefore hafter hspelt hmore
termination_by 3 * s.length + 2

theorem speltMoreMembers_of_scanMoreMembers {s : List Char}
    (hmembers : ∀ m ∈ (scanMoreMembers s).1, m.1.ending = .closed ∧ m.2.skip = .ok ())
    (hend : (scanMoreMembers s).2.1 = .closed) :
    ∃ inside, s = inside ++ '\x7d' :: (scanMoreMembers s).2.2.val ∧
      SpeltMoreMembers (scanMoreMembers s).1 inside := by
  rcases exists_of_scanMoreMembers hend with ⟨r, hr⟩ | ⟨r, q, hr, hq⟩
  · obtain ⟨blank, hs, hblank, -⟩ := skipSpace_eq_cons_iff.mp hr
    rw [scanMoreMembers_of_closed hr]
    exact ⟨blank, hs, .nil hblank⟩
  · obtain ⟨after, hs, hafter, -⟩ := skipSpace_eq_cons_iff.mp hr
    obtain ⟨before, hr', hbefore, -⟩ := skipSpace_eq_cons_iff.mp hq
    have hlen := length_lt_of_skipSpace hr
    have hlen' := length_lt_of_skipSpace hq
    rw [scanMoreMembers_of_comma hr hq] at hmembers hend ⊢
    obtain ⟨inside, hinside, hspelt⟩ := speltMembers_of_scanMember hmembers hend
    refine ⟨after ++ ',' :: (before ++ inside), ?_, .comma hafter (hspelt before hbefore)⟩
    simp [hs, hr', hinside]
termination_by 3 * s.length

end

/-! ### What is spelt is found -/

/-- **A value is found** wherever a text begins with the given characters and goes on in a way in
which no number does. Its first character is neither a blank nor the end of a list, since a list
looks for these two before it looks for an element. -/
def Tree.FoundIn (t : Tree) (spelt : List Char) : Prop :=
  ∃ c s, spelt = c :: s ∧ isSpace c = false ∧ c ≠ ']' ∧ ∀ r, EndsNumber r →
    (scanValue c (s ++ r)).1 = t ∧ (scanValue c (s ++ r)).2.val = r

/-- The parts of a list or an object that were found, how it ended, and what was left. -/
def Finds {α ε : Type} (result : α × ε × Rest s) (parts : α) (ending : ε) (left : List Char) :
    Prop :=
  result.1 = parts ∧ result.2.1 = ending ∧ result.2.2.val = left

theorem foundIn_of_scanWord {word : List Char} {found : Tree} (hspace : isSpace c = false)
    (hc : c ≠ ']') (hword : ∀ s, scanValue c s = scanWord word found s) :
    found.FoundIn (c :: word) := by
  refine ⟨c, word, rfl, hspace, hc, fun r _ => ?_⟩
  rw [hword, scanWord_append]
  exact ⟨rfl, rfl⟩

theorem ne_of_isDigit (hc : c.isDigit) (hd : d.isDigit = false) : c ≠ d := by
  rintro rfl
  rw [hc] at hd
  cases hd

theorem isSpace_eq_false_of_isDigit (hc : c.isDigit) : isSpace c = false := by
  refine Bool.eq_false_iff.mpr fun hspace => ?_
  rcases isSpace_iff.mp hspace with rfl | rfl | rfl | rfl
  all_goals exact absurd hc (by decide)

theorem Numeral.SpeltAs.found {n : Numeral} {spelt : List Char} (h : n.SpeltAs spelt) :
    (Tree.number n).FoundIn spelt := by
  obtain ⟨d, ds, rfl, hd, hfound⟩ := scanNumeral_of_speltAs h
  cases hn : n.negative with
  | false =>
    have hvalue : ∀ s, scanValue d s = scanNumeral n.negative d s := by
      intro s
      rw [scanValue, if_neg (ne_of_isDigit hd rfl), if_neg (ne_of_isDigit hd rfl),
        if_neg (ne_of_isDigit hd rfl), if_neg (ne_of_isDigit hd rfl), if_pos hd, hn]
    refine ⟨d, ds, rfl, isSpace_eq_false_of_isDigit hd, ne_of_isDigit hd rfl, fun r hr => ?_⟩
    rw [hvalue]
    exact hfound r hr
  | true =>
    have hvalue : ∀ s, scanValue '-' (d :: s) =
        ((scanNumeral n.negative d s).1, (scanNumeral n.negative d s).2.widen (by simp)) := by
      intro s
      rw [scanValue, hn]
      rfl
    refine ⟨'-', d :: ds, rfl, rfl, by decide, fun r hr => ?_⟩
    rw [List.cons_append, hvalue]
    exact hfound r hr

theorem Lexeme.SpeltAs.found {l : Lexeme} {spelt : List Char} (h : l.SpeltAs spelt) :
    (Tree.string l).FoundIn spelt := by
  cases h with
  | @intro pieces body hpieces =>
    refine ⟨'"', body ++ ['"'], rfl, rfl, by decide, fun r _ => ?_⟩
    obtain ⟨hlexeme, hrest⟩ := scanString_of_speltPieces hpieces r
    rw [List.append_assoc, List.singleton_append, scanValue]
    exact ⟨congrArg Tree.string hlexeme, hrest⟩

/-- A list is scanned up to its bracket when its inside is, whatever follows. -/
theorem scanValue_of_scanItems {items : List Tree} {inside : List Char}
    (h : ∀ r, Finds (scanItems (inside ++ ']' :: r)) items .closed r) (r : List Char) :
    (scanValue '[' (inside ++ [']'] ++ r)).1 = .list items .closed ∧
      (scanValue '[' (inside ++ [']'] ++ r)).2.val = r := by
  obtain ⟨hitems, hend, hrest⟩ := h r
  rw [List.append_assoc, List.singleton_append, scanValue]
  exact ⟨congrArg₂ Tree.list hitems hend, hrest⟩

/-- An object is scanned up to its brace when its inside is, whatever follows. -/
theorem scanValue_of_scanMembers {members : List (Lexeme × Tree)} {inside : List Char}
    (h : ∀ r, Finds (scanMembers (inside ++ '\x7d' :: r)) members .closed r) (r : List Char) :
    (scanValue '\x7b' (inside ++ ['\x7d'] ++ r)).1 = .object members .closed ∧
      (scanValue '\x7b' (inside ++ ['\x7d'] ++ r)).2.val = r := by
  obtain ⟨hmembers, hend, hrest⟩ := h r
  rw [List.append_assoc, List.singleton_append, scanValue]
  exact ⟨congrArg₂ Tree.object hmembers hend, hrest⟩

/-- A list is found when its inside is found after the bracket. -/
theorem foundIn_of_scanItems {items : List Tree} {inside : List Char}
    (h : ∀ r, Finds (scanItems (inside ++ ']' :: r)) items .closed r) :
    (Tree.list items .closed).FoundIn ('[' :: (inside ++ [']'])) :=
  ⟨'[', inside ++ [']'], rfl, rfl, by decide, fun r _ => scanValue_of_scanItems h r⟩

/-- An object is found when its inside is found after the brace. -/
theorem foundIn_of_scanMembers {members : List (Lexeme × Tree)} {inside : List Char}
    (h : ∀ r, Finds (scanMembers (inside ++ '\x7d' :: r)) members .closed r) :
    (Tree.object members .closed).FoundIn ('\x7b' :: (inside ++ ['\x7d'])) :=
  ⟨'\x7b', inside ++ ['\x7d'], rfl, rfl, by decide, fun r _ => scanValue_of_scanMembers h r⟩

theorem skipSpace_append_of_eq_cons {inside : List Char} (h : skipSpace inside = c :: s)
    (r : List Char) : skipSpace (inside ++ r) = c :: (s ++ r) := by
  obtain ⟨blank, rfl, hblank, hc⟩ := skipSpace_eq_cons_iff.mp h
  exact skipSpace_eq_cons_iff.mpr ⟨blank, by simp, hblank, hc⟩

theorem IsBlank.endsNumber {blank : List Char} (h : IsBlank blank) (hr : EndsNumber r) :
    EndsNumber (blank ++ r) := by
  cases blank with
  | nil => exact hr
  | cons b blank =>
    intro d hd
    cases hd
    rcases h b List.mem_cons_self with rfl | rfl | rfl | rfl
    all_goals decide

theorem endsNumber_of_separator (h : c = ',' ∨ c = ']' ∨ c = '\x7d') (r : List Char) :
    EndsNumber (c :: r) := by
  intro d hd
  cases hd
  rcases h with rfl | rfl | rfl
  all_goals decide

theorem SpeltMoreItems.endsNumber {items : List Tree} {s : List Char} (h : SpeltMoreItems items s)
    (r : List Char) : EndsNumber (s ++ ']' :: r) := by
  cases h with
  | nil hblank => exact hblank.endsNumber (endsNumber_of_separator (by decide) r)
  | comma hblank _ =>
    rw [List.append_assoc]
    exact hblank.endsNumber (endsNumber_of_separator (by decide) _)

theorem SpeltMoreMembers.endsNumber {members : List (Lexeme × Tree)} {s : List Char}
    (h : SpeltMoreMembers members s) (r : List Char) : EndsNumber (s ++ '\x7d' :: r) := by
  cases h with
  | nil hblank => exact hblank.endsNumber (endsNumber_of_separator (by decide) r)
  | comma hblank _ =>
    rw [List.append_assoc]
    exact hblank.endsNumber (endsNumber_of_separator (by decide) _)

/-- A member is found when its value is found and then what stands after it. -/
theorem finds_scanMember {key : Lexeme} {value : Tree} {members : List (Lexeme × Tree)}
    {before k beforeColon afterColon spelt more : List Char} (hblank : IsBlank before)
    (hkey : key.SpeltAs k) (hbefore : IsBlank beforeColon) (hafter : IsBlank afterColon)
    (hvalue : value.FoundIn spelt) (hends : ∀ r, EndsNumber (more ++ '\x7d' :: r))
    (hmore : ∀ r, Finds (scanMoreMembers (more ++ '\x7d' :: r)) members .closed r) :
    ∃ s, skipSpace (before ++ k ++ beforeColon ++ ':' :: (afterColon ++ spelt ++ more)) = '"' :: s ∧
      ∀ r, Finds (scanMember (s ++ '\x7d' :: r)) ((key, value) :: members) .closed r := by
  cases hkey with
  | @intro pieces body hpieces =>
    obtain ⟨c, s, rfl, hspace, -, hfound⟩ := hvalue
    refine ⟨body ++ '"' :: (beforeColon ++ ':' :: (afterColon ++ c :: (s ++ more))),
      skipSpace_eq_cons_iff.mpr ⟨before, by simp, hblank, rfl⟩, fun r => ?_⟩
    have hassoc : body ++ '"' :: (beforeColon ++ ':' :: (afterColon ++ c :: (s ++ more))) ++
        '\x7d' :: r = body ++ '"' :: (beforeColon ++ ':' :: (afterColon ++ c :: (s ++
          (more ++ '\x7d' :: r)))) := by
      simp
    rw [hassoc]
    obtain ⟨hkey, hrest⟩ := scanString_of_speltPieces hpieces
      (beforeColon ++ ':' :: (afterColon ++ c :: (s ++ (more ++ '\x7d' :: r))))
    have hcolon := skipSpace_eq_cons_iff.mpr ⟨beforeColon, hrest, hbefore, rfl⟩
    have hfirst := skipSpace_append hafter hspace (s ++ (more ++ '\x7d' :: r))
    obtain ⟨hmembers, hend, hleft⟩ := scanMember_of_colon hcolon hfirst
    -- the value leaves exactly the text in which the further members are found
    obtain ⟨hvalue, hrest⟩ := hfound _ (hends r)
    obtain ⟨hothers, hclosed, hr⟩ := hrest ▸ hmore r
    exact ⟨hmembers.trans (congrArg₂ List.cons (congrArg₂ Prod.mk hkey hvalue) hothers),
      hend.trans hclosed, hleft.trans hr⟩

theorem skipSpace_comma {blank : List Char} (h : IsBlank blank) (s r : List Char) :
    skipSpace (blank ++ ',' :: s ++ r) = ',' :: (s ++ r) :=
  skipSpace_eq_cons_iff.mpr ⟨blank, List.append_assoc _ _ _, h, rfl⟩

/-! The inside of a list or of an object is found as far as the bracket or brace behind it when it
is empty, and otherwise when its first part is found at its first character that is no blank. -/

theorem finds_scanItems_of_blank {inside : List Char} (h : IsBlank inside) (r : List Char) :
    Finds (scanItems (inside ++ ']' :: r)) [] .closed r := by
  rw [scanItems_of_closed (skipSpace_append h rfl r)]
  exact ⟨rfl, rfl, rfl⟩

theorem finds_scanItems_of_item {items : List Tree} {inside : List Char}
    (h : ∃ c s, skipSpace inside = c :: s ∧ c ≠ ']' ∧
      ∀ r, Finds (scanItem c (s ++ ']' :: r)) items .closed r) (r : List Char) :
    Finds (scanItems (inside ++ ']' :: r)) items .closed r := by
  obtain ⟨c, s, hs, hc, hfound⟩ := h
  rw [scanItems_of_item (skipSpace_append_of_eq_cons hs _) hc]
  exact hfound r

theorem finds_scanMembers_of_blank {inside : List Char} (h : IsBlank inside) (r : List Char) :
    Finds (scanMembers (inside ++ '\x7d' :: r)) [] .closed r := by
  rw [scanMembers_of_closed (skipSpace_append h rfl r)]
  exact ⟨rfl, rfl, rfl⟩

theorem finds_scanMembers_of_key {members : List (Lexeme × Tree)} {inside : List Char}
    (h : ∃ s, skipSpace inside = '"' :: s ∧
      ∀ r, Finds (scanMember (s ++ '\x7d' :: r)) members .closed r) (r : List Char) :
    Finds (scanMembers (inside ++ '\x7d' :: r)) members .closed r := by
  obtain ⟨s, hs, hfound⟩ := h
  rw [scanMembers_of_key (skipSpace_append_of_eq_cons hs _)]
  exact hfound r

mutual

/-- **A value that is spelt is found.** -/
theorem Tree.SpeltAs.found {t : Tree} {spelt : List Char} : t.SpeltAs spelt → t.FoundIn spelt
  | .null => foundIn_of_scanWord rfl (by decide) fun s => by rw [scanValue, if_pos rfl]
  | .true => foundIn_of_scanWord rfl (by decide) fun s => by
      rw [scanValue, if_neg (by decide), if_pos rfl]
  | .false => foundIn_of_scanWord rfl (by decide) fun s => by
      rw [scanValue, if_neg (by decide), if_neg (by decide), if_pos rfl]
  | .number h => h.found
  | .string h => h.found
  | .emptyList h => foundIn_of_scanItems (finds_scanItems_of_blank h)
  | .list h => foundIn_of_scanItems (finds_scanItems_of_item h.found)
  | .emptyObject h => foundIn_of_scanMembers (finds_scanMembers_of_blank h)
  | .object h => foundIn_of_scanMembers (finds_scanMembers_of_key h.found)

theorem SpeltItems.found {items : List Tree} {inside : List Char} :
    SpeltItems items inside → ∃ c s, skipSpace inside = c :: s ∧ c ≠ ']' ∧
      ∀ r, Finds (scanItem c (s ++ ']' :: r)) items .closed r
  | @SpeltItems.cons item items before spelt more hblank h hmore => by
    obtain ⟨c, s, rfl, hspace, hc, hfound⟩ := h.found
    refine ⟨c, s ++ more, ?_, hc, fun r => ?_⟩
    · exact skipSpace_eq_cons_iff.mpr ⟨before, by simp, hblank, hspace⟩
    · obtain ⟨hvalue, hrest⟩ := hfound _ (hmore.endsNumber r)
      obtain ⟨hitems, hend, hleft⟩ := hrest ▸ hmore.found r
      rw [List.append_assoc, scanItem_eq]
      exact ⟨congrArg₂ List.cons hvalue hitems, hend, hleft⟩

theorem SpeltMoreItems.found {items : List Tree} {s : List Char} :
    SpeltMoreItems items s → ∀ r, Finds (scanMoreItems (s ++ ']' :: r)) items .closed r
  | .nil hblank => fun r => by
      rw [scanMoreItems_of_closed (skipSpace_append hblank rfl r)]
      exact ⟨rfl, rfl, rfl⟩
  | .comma hblank h => fun r => by
      obtain ⟨c, s, hs, hc, hfound⟩ := h.found
      rw [scanMoreItems_of_comma (skipSpace_comma hblank _ _) (skipSpace_append_of_eq_cons hs _) hc]
      exact hfound r

theorem SpeltMembers.found {members : List (Lexeme × Tree)} {inside : List Char} :
    SpeltMembers members inside → ∃ s, skipSpace inside = '"' :: s ∧
      ∀ r, Finds (scanMember (s ++ '\x7d' :: r)) members .closed r
  | .cons hblank hkey hbefore hafter h hmore =>
    finds_scanMember hblank hkey hbefore hafter h.found hmore.endsNumber hmore.found

theorem SpeltMoreMembers.found {members : List (Lexeme × Tree)} {s : List Char} :
    SpeltMoreMembers members s → ∀ r, Finds (scanMoreMembers (s ++ '\x7d' :: r)) members .closed r
  | .nil hblank => fun r => by
      rw [scanMoreMembers_of_closed (skipSpace_append hblank rfl r)]
      exact ⟨rfl, rfl, rfl⟩
  | .comma hblank h => fun r => by
      obtain ⟨s, hs, hfound⟩ := h.found
      rw [scanMoreMembers_of_comma (skipSpace_comma hblank _ _) (skipSpace_append_of_eq_cons hs _)]
      exact hfound r

end

/-! ### Whole texts -/

/-- **A whole text** is scanned as a complete value with nothing after it exactly when it spells
that value. -/
theorem scan_eq_iff {text : String} {t : Tree} :
    Document.scan text = ⟨t, false⟩ ∧ t.skip = .ok () ↔ IsDocument text.toList t := by
  constructor
  · rintro ⟨hscan, hskip⟩
    rw [Document.scan] at hscan
    split at hscan
    next =>
      cases hscan
      cases hskip
    next c s hs =>
      obtain ⟨rfl, htrailing⟩ := Document.mk.inj hscan
      obtain ⟨before, htext, hbefore, -⟩ := skipSpace_eq_cons_iff.mp hs
      obtain ⟨spelt, hcs, hspelt⟩ := speltAs_of_scanValue hskip
      rw [Bool.not_eq_false', List.isEmpty_iff, skipSpace_eq_nil_iff] at htrailing
      exact ⟨by rw [htext, hcs, List.append_assoc], hbefore, htrailing, hspelt⟩
  · rintro ⟨htext, hbefore, hafter, hspelt⟩
    refine ⟨?_, hspelt.skip_eq_ok⟩
    obtain ⟨c, s, rfl, hspace, -, hfound⟩ := hspelt.found
    obtain ⟨hvalue, hrest⟩ := hfound _ (List.append_nil _ ▸ hafter.endsNumber endsNumber_nil)
    rw [List.append_assoc] at htext
    rw [Document.scan, htext, List.cons_append, skipSpace_append hbefore hspace]
    rw [← skipSpace_eq_nil_iff] at hafter
    simp only [hvalue, hrest, hafter]
    rfl

end Json

end ClassAtlas
