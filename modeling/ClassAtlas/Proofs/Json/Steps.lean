import ClassAtlas.Proofs.Json.Tokens
/-!
# Lists and objects step by step

A scanning function for the inside of a list or of an object looks at the first character that is
no blank. For each of them: what it does at each character with which the inside can go on or end,
and that one of these characters stands there if the list or object is found with its end.
-/

namespace ClassAtlas

namespace Json

variable {s r q : List Char} {c d : Char}

/-! ### Lists -/

theorem scanItems_of_closed (h : skipSpace s = ']' :: r) :
    scanItems s = ([], .closed, ⟨r, Nat.le_of_lt (length_lt_of_skipSpace h)⟩) := by
  rw [scanItems]
  split
  next heq => cases h.symm.trans heq
  next heq =>
    cases h.symm.trans heq
    rfl

theorem scanItems_of_item (h : skipSpace s = c :: r) (hc : c ≠ ']') :
    scanItems s = ((scanItem c r).1, (scanItem c r).2.1,
      (scanItem c r).2.2.widen (Nat.le_of_lt (length_lt_of_skipSpace h))) := by
  rw [scanItems]
  split
  next heq => cases h.symm.trans heq
  next heq =>
    cases h.symm.trans heq
    exact if_neg hc

/-- How a list that has its end goes on after its bracket. -/
theorem exists_of_scanItems (h : (scanItems s).2.1 = .closed) :
    (∃ r, skipSpace s = ']' :: r) ∨ ∃ c r, skipSpace s = c :: r ∧ c ≠ ']' := by
  rw [scanItems] at h
  split at h
  next => cases h
  next c r hs =>
    by_cases hc : c = ']'
    · exact Or.inl ⟨r, hc ▸ hs⟩
    · exact Or.inr ⟨c, r, hs, hc⟩

theorem scanItem_eq (c : Char) (s : List Char) :
    scanItem c s = ((scanValue c s).1 :: (scanMoreItems (scanValue c s).2.val).1,
      (scanMoreItems (scanValue c s).2.val).2.1,
      (scanValue c s).2.trans (scanMoreItems (scanValue c s).2.val).2.2) := by
  rw [scanItem]

theorem scanMoreItems_of_closed (h : skipSpace s = ']' :: r) :
    scanMoreItems s = ([], .closed, ⟨r, Nat.le_of_lt (length_lt_of_skipSpace h)⟩) := by
  rw [scanMoreItems]
  split
  next heq => cases h.symm.trans heq
  next heq =>
    cases h.symm.trans heq
    rfl

theorem scanMoreItems_of_comma (h : skipSpace s = ',' :: r) (hr : skipSpace r = d :: q)
    (hd : d ≠ ']') :
    scanMoreItems s = ((scanItem d q).1, (scanItem d q).2.1,
      (scanItem d q).2.2.widen (Nat.le_of_lt
        (Nat.lt_trans (length_lt_of_skipSpace hr) (length_lt_of_skipSpace h)))) := by
  rw [scanMoreItems]
  split
  next heq => cases h.symm.trans heq
  next heq =>
    cases h.symm.trans heq
    rw [if_neg (by decide), if_pos rfl]
    split
    next heq => cases hr.symm.trans heq
    next heq =>
      cases hr.symm.trans heq
      exact if_neg hd

/-- How a list that has its end goes on after an element. -/
theorem exists_of_scanMoreItems (h : (scanMoreItems s).2.1 = .closed) :
    (∃ r, skipSpace s = ']' :: r) ∨
      ∃ r d q, skipSpace s = ',' :: r ∧ skipSpace r = d :: q ∧ d ≠ ']' := by
  rw [scanMoreItems] at h
  split at h
  next => cases h
  next c r hs =>
    split_ifs at h with hclosed hcomma
    · exact Or.inl ⟨r, hclosed ▸ hs⟩
    · split at h
      next => cases h
      next d q hr =>
        split_ifs at h with hd
        exact Or.inr ⟨r, d, q, hcomma ▸ hs, hr, hd⟩

/-! ### Objects -/

theorem scanMembers_of_closed (h : skipSpace s = '\x7d' :: r) :
    scanMembers s = ([], .closed, ⟨r, Nat.le_of_lt (length_lt_of_skipSpace h)⟩) := by
  rw [scanMembers]
  split
  next heq => cases h.symm.trans heq
  next heq =>
    cases h.symm.trans heq
    rfl

theorem scanMembers_of_key (h : skipSpace s = '"' :: r) :
    scanMembers s = ((scanMember r).1, (scanMember r).2.1,
      (scanMember r).2.2.widen (Nat.le_of_lt (length_lt_of_skipSpace h))) := by
  rw [scanMembers]
  split
  next heq => cases h.symm.trans heq
  next heq =>
    cases h.symm.trans heq
    rfl

/-- How an object that has its end goes on after its brace. -/
theorem exists_of_scanMembers (h : (scanMembers s).2.1 = .closed) :
    (∃ r, skipSpace s = '\x7d' :: r) ∨ ∃ r, skipSpace s = '"' :: r := by
  rw [scanMembers] at h
  split at h
  next => cases h
  next c r hs =>
    split_ifs at h with hclosed hkey
    · exact Or.inl ⟨r, hclosed ▸ hs⟩
    · exact Or.inr ⟨r, hkey ▸ hs⟩

theorem scanMember_of_colon {p : List Char} (h : skipSpace (scanString s).2.val = ':' :: q)
    (hq : skipSpace q = d :: p) :
    (scanMember s).1 = ((scanString s).1, (scanValue d p).1) ::
        (scanMoreMembers (scanValue d p).2.val).1 ∧
      (scanMember s).2.1 = (scanMoreMembers (scanValue d p).2.val).2.1 ∧
      (scanMember s).2.2.val = (scanMoreMembers (scanValue d p).2.val).2.2.val := by
  rw [scanMember]
  split
  next key o hkey =>
  rw [hkey] at h ⊢
  dsimp only at h ⊢
  split
  next heq => cases h.symm.trans heq
  next heq =>
    cases h.symm.trans heq
    rw [if_pos rfl]
    split
    next heq => cases hq.symm.trans heq
    next heq =>
      cases hq.symm.trans heq
      exact ⟨rfl, rfl, rfl⟩

/-- How an object that has its end goes on after the quote of a key. -/
theorem exists_of_scanMember (h : (scanMember s).2.1 = .closed) :
    ∃ q d p, skipSpace (scanString s).2.val = ':' :: q ∧ skipSpace q = d :: p := by
  rw [scanMember] at h
  split at h
  next key o hkey =>
  rw [hkey]
  dsimp only at h ⊢
  split at h
  next => cases h
  next c q hs =>
    split_ifs at h with hcolon
    split at h
    next => cases h
    next d p hq => exact ⟨q, d, p, hcolon ▸ hs, hq⟩

theorem scanMoreMembers_of_closed (h : skipSpace s = '\x7d' :: r) :
    scanMoreMembers s = ([], .closed, ⟨r, Nat.le_of_lt (length_lt_of_skipSpace h)⟩) := by
  rw [scanMoreMembers]
  split
  next heq => cases h.symm.trans heq
  next heq =>
    cases h.symm.trans heq
    rfl

theorem scanMoreMembers_of_comma (h : skipSpace s = ',' :: r) (hr : skipSpace r = '"' :: q) :
    scanMoreMembers s = ((scanMember q).1, (scanMember q).2.1,
      (scanMember q).2.2.widen (Nat.le_of_lt
        (Nat.lt_trans (length_lt_of_skipSpace hr) (length_lt_of_skipSpace h)))) := by
  rw [scanMoreMembers]
  split
  next heq => cases h.symm.trans heq
  next heq =>
    cases h.symm.trans heq
    rw [if_neg (by decide), if_pos rfl]
    split
    next heq => cases hr.symm.trans heq
    next heq =>
      cases hr.symm.trans heq
      rfl

/-- How an object that has its end goes on after a member. -/
theorem exists_of_scanMoreMembers (h : (scanMoreMembers s).2.1 = .closed) :
    (∃ r, skipSpace s = '\x7d' :: r) ∨
      ∃ r q, skipSpace s = ',' :: r ∧ skipSpace r = '"' :: q := by
  rw [scanMoreMembers] at h
  split at h
  next => cases h
  next c r hs =>
    split_ifs at h with hclosed hcomma
    · exact Or.inl ⟨r, hclosed ▸ hs⟩
    · split at h
      next => cases h
      next d q hr =>
        split_ifs at h with hend hkey
        exact Or.inr ⟨r, q, hcomma ▸ hs, hkey ▸ hr⟩

end Json

end ClassAtlas
