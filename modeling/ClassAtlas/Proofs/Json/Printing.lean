import ClassAtlas.Json.Value
import ClassAtlas.Proofs.Json.Contents
/-!
# What a printed text spells

A value is printed over several lines, with blanks that depend on the level of each line. All this
is lost when the text is read again, and nothing else is: a printed text spells one tree
(`ClassAtlas.Json.Value.tree`), in which the value stands part by part, a string by one piece for
each of its characters and a number by its digits. So a printed text is a document
(`ClassAtlas.Json.Value.isDocument_text`), and values that are printed alike are the same
(`ClassAtlas.Json.Value.text_inj`).

Which trees a text spells is a matter of the grammar, and that it spells no more than one is known
from the scanner. Nothing here looks for the end of a string or of a list in a text.
-/

namespace ClassAtlas

namespace Json

/-! ### Strings -/

/-- The characters that are printed as a backslash and one letter. -/
def lettered : List Char :=
  ['"', '\\', '\n', '\r', '\t', '\x08', '\x0c']

/-- **The piece that a character is printed as.** -/
def writtenPiece (c : Char) : Piece :=
  if c ∈ lettered then .escaped c
  else if c.toNat < 0x20 then .unit c.toNat
  else .plain c

/-- **A string as it is printed**, one piece for each character. -/
def writtenLexeme (text : String) : Lexeme :=
  ⟨text.toList.map writtenPiece, .closed⟩

theorem isHexDigit_hexChar {n : Nat} (h : n < 16) : IsHexDigit (hexChar n) n := by
  have hall : ∀ n < 16, "0123456789abcdef".toList[n]? = some (hexChar n) := by decide
  exact Or.inl (hall n h)

/-- A control character is printed by its code point, which has two digits. -/
theorem speltAs_unit {n : Nat} (h : n < 0x20) :
    (Piece.unit n).SpeltAs ['\\', 'u', '0', '0', hexChar (n / 16), hexChar (n % 16)] := by
  have hzero : IsHexDigit '0' 0 := isHexDigit_hexChar (by omega)
  have hhigh : IsHexDigit (hexChar (n / 16)) (n / 16) := isHexDigit_hexChar (by omega)
  have hlow : IsHexDigit (hexChar (n % 16)) (n % 16) := isHexDigit_hexChar (by omega)
  have hvalue : Nat.ofDigits 16 [n % 16, n / 16, 0, 0] = n := by
    simp only [Nat.ofDigits_cons, Nat.ofDigits_nil]
    omega
  have hspelt := Piece.SpeltAs.unit hzero hzero hhigh hlow
  rwa [hvalue] at hspelt

/-- **A character is printed as its piece.** -/
theorem speltAs_writtenChar (c : Char) : (writtenPiece c).SpeltAs (writtenChar c) := by
  by_cases hletter : c ∈ lettered
  · simp only [lettered, List.mem_cons, List.not_mem_nil, or_false] at hletter
    rcases hletter with rfl | rfl | rfl | rfl | rfl | rfl | rfl
    all_goals exact .escaped (by decide)
  · obtain ⟨hquote, hbackslash, hline, hreturn, htab, hback, hfeed⟩ :
        c ≠ '"' ∧ c ≠ '\\' ∧ c ≠ '\n' ∧ c ≠ '\r' ∧ c ≠ '\t' ∧ c ≠ '\x08' ∧ c ≠ '\x0c' := by
      simpa [lettered] using hletter
    rw [writtenPiece, if_neg hletter, writtenChar, if_neg hquote, if_neg hbackslash, if_neg hline,
      if_neg hreturn, if_neg htab, if_neg hback, if_neg hfeed]
    by_cases hcontrol : c.toNat < 0x20
    · rw [if_pos hcontrol, if_pos hcontrol]
      exact speltAs_unit hcontrol
    · rw [if_neg hcontrol, if_neg hcontrol]
      exact .plain hquote hbackslash (Nat.le_of_not_lt hcontrol)

theorem speltPieces_flatMap_writtenChar (s : List Char) :
    SpeltPieces (s.map writtenPiece) (s.flatMap writtenChar) := by
  induction s with
  | nil => exact .nil
  | cons c s ih => exact .cons (speltAs_writtenChar c) ih

theorem speltAs_writtenString (text : String) :
    (writtenLexeme text).SpeltAs (writtenString text) :=
  .intro (speltPieces_flatMap_writtenChar text.toList)

/-- The pieces stand for the characters that they were made from. -/
theorem contents_map_writtenPiece (s : List Char) : Contents (s.map writtenPiece) s := by
  induction s with
  | nil => exact .nil
  | cons c s ih =>
    rw [List.map_cons, writtenPiece]
    split_ifs with hletter hcontrol
    · exact .escaped ih
    · have hunit : Contents (.unit c.toNat :: s.map writtenPiece) (Char.ofNat c.toNat :: s) :=
        .unit (Or.inl (by omega)) ih
      rwa [Char.ofNat_toNat] at hunit
    · exact .plain ih

/-- **A printed string holds its text.** -/
theorem holds_writtenLexeme (text : String) : (writtenLexeme text).Holds text :=
  ⟨rfl, contents_map_writtenPiece text.toList⟩

theorem writtenLexeme_inj {a b : String} : writtenLexeme a = writtenLexeme b ↔ a = b := by
  refine ⟨fun h => ?_, congrArg writtenLexeme⟩
  have ha := Lexeme.text_eq_ok_iff.mpr (holds_writtenLexeme a)
  have hb := Lexeme.text_eq_ok_iff.mpr (holds_writtenLexeme b)
  rw [h] at ha
  exact Except.ok.inj (ha.symm.trans hb)

/-! ### Numbers -/

/-- **A number as it is printed**, by its digits alone. -/
def writtenNumeral (n : Nat) : Numeral where
  negative := false
  whole := Nat.toDigits 10 n
  fraction := none
  exponent := none

/-- No superfluous zero is printed in front. -/
theorem toDigits_eq_of_head? {n : Nat} (h : (Nat.toDigits 10 n).head? = some '0') :
    Nat.toDigits 10 n = ['0'] := by
  induction n using Nat.strong_induction_on with
  | _ n ih =>
    by_cases hlt : n < 10
    · rw [Nat.toDigits_of_lt_base hlt] at h ⊢
      exact congrArg (· :: []) (Option.some.inj h)
    · rw [Nat.toDigits_of_base_le (by omega) (by omega),
        List.head?_append_of_ne_nil _ Nat.toDigits_ne_nil] at h
      have hzero := Nat.ofDigitChars_ten_toDigits (n := n / 10)
      rw [ih (n / 10) (by omega) h] at hzero
      have : n / 10 = 0 := hzero.symm
      omega

theorem isWhole_toDigits (n : Nat) : IsWhole (Nat.toDigits 10 n) :=
  ⟨⟨Nat.toDigits_ne_nil, fun _ hd => Nat.isDigit_of_mem_toDigits (by omega) (by omega) hd⟩,
    toDigits_eq_of_head?⟩

theorem speltAs_toDigits (n : Nat) : (writtenNumeral n).SpeltAs (Nat.toDigits 10 n) := by
  have hspelt : (writtenNumeral n).SpeltAs ([] ++ Nat.toDigits 10 n ++ [] ++ []) :=
    .intro (isWhole_toDigits n) .none .none
  simpa using hspelt

theorem writtenNumeral_inj {m n : Nat} : writtenNumeral m = writtenNumeral n ↔ m = n := by
  refine ⟨fun h => ?_, congrArg writtenNumeral⟩
  have hdigits : Nat.toDigits 10 m = Nat.toDigits 10 n := congrArg Numeral.whole h
  rw [← Nat.ofDigitChars_ten_toDigits (n := m), hdigits, Nat.ofDigitChars_ten_toDigits]

/-! ### Values -/

mutual

/-- **The tree that the text of a value spells.** -/
def Value.tree : Value → Tree
  | .null => .null
  | .boolean value => .boolean value
  | .number n => .number (writtenNumeral n)
  | .string text => .string (writtenLexeme text)
  | .list items => .list (itemTrees items) .closed
  | .object members => .object (memberTrees members) .closed

/-- The trees of the elements of a list. -/
def itemTrees : List Value → List Tree
  | [] => []
  | item :: items => item.tree :: itemTrees items

/-- The keys of the members of an object as they are printed, and the trees of their values. -/
def memberTrees : List (String × Value) → List (Lexeme × Tree)
  | [] => []
  | (key, value) :: members => (writtenLexeme key, value.tree) :: memberTrees members

end

theorem isBlank_nil : IsBlank [] := by
  simp [IsBlank]

theorem isBlank_space : IsBlank [' '] := by
  simp [IsBlank]

theorem isBlank_newLine (level : Nat) : IsBlank (newLine level) := by
  intro c hc
  rcases List.mem_cons.mp hc with rfl | hc
  · simp
  · simp [List.eq_of_mem_replicate hc]

mutual

/-- **A printed value spells its tree**, on whichever level it stands. -/
theorem Value.speltAs_pretty (level : Nat) : (v : Value) → v.tree.SpeltAs (v.pretty level)
  | .null => .null
  | .boolean true => .true
  | .boolean false => .false
  | .number n => .number (speltAs_toDigits n)
  | .string text => .string (speltAs_writtenString text)
  | .list [] => .emptyList isBlank_nil
  | .list (item :: items) => by
    have hspelt := Tree.SpeltAs.list <| .cons (isBlank_newLine (level + 1))
      (item.speltAs_pretty (level + 1))
      (speltMoreItems_prettyItems (level + 1) (isBlank_newLine level) items)
    simpa [Value.tree, itemTrees, Value.pretty] using hspelt
  | .object [] => .emptyObject isBlank_nil
  | .object ((key, value) :: members) => by
    have hspelt := Tree.SpeltAs.object <| .cons (isBlank_newLine (level + 1))
      (speltAs_writtenString key) isBlank_nil isBlank_space
      (value.speltAs_pretty (level + 1))
      (speltMoreMembers_prettyMembers (level + 1) (isBlank_newLine level) members)
    simpa [Value.tree, memberTrees, Value.pretty] using hspelt

/-- What is printed of a list after one of its elements, up to the blanks before its end. -/
theorem speltMoreItems_prettyItems (level : Nat) {after : List Char} (hafter : IsBlank after) :
    (items : List Value) → SpeltMoreItems (itemTrees items) (prettyItems level items ++ after)
  | [] => .nil hafter
  | item :: items => by
    have hspelt := SpeltMoreItems.comma isBlank_nil <| .cons (isBlank_newLine level)
      (item.speltAs_pretty level) (speltMoreItems_prettyItems level hafter items)
    simpa [itemTrees, prettyItems] using hspelt

/-- What is printed of an object after one of its members, up to the blanks before its end. -/
theorem speltMoreMembers_prettyMembers (level : Nat) {after : List Char} (hafter : IsBlank after) :
    (members : List (String × Value)) →
      SpeltMoreMembers (memberTrees members) (prettyMembers level members ++ after)
  | [] => .nil hafter
  | (key, value) :: members => by
    have hspelt := SpeltMoreMembers.comma isBlank_nil <| .cons (isBlank_newLine level)
      (speltAs_writtenString key) isBlank_nil isBlank_space
      (value.speltAs_pretty level) (speltMoreMembers_prettyMembers level hafter members)
    simpa [memberTrees, prettyMembers] using hspelt

end

/-- **A printed text is a document**, also with blanks behind it. -/
theorem Value.isDocument_text_append (v : Value) {blank : String} (h : IsBlank blank.toList) :
    IsDocument (v.text ++ blank).toList v.tree := by
  refine .intro ?_ isBlank_nil h (v.speltAs_pretty 0)
  rw [String.toList_append, Value.text, String.toList_ofList, List.nil_append]

theorem Value.isDocument_text (v : Value) : IsDocument v.text.toList v.tree := by
  have hdocument : IsDocument (v.text ++ "").toList v.tree :=
    v.isDocument_text_append isBlank_nil
  rwa [String.append_empty] at hdocument

/-! ### What printed values stand for -/

theorem isText_tree (text : String) : IsText (Value.string text).tree text :=
  .string (holds_writtenLexeme text)

/-- A printed number of 64 bits is read as itself. -/
theorem isCount_tree {n : Nat} (h : n ≤ maxCount) : IsCount (Value.number n).tree n := by
  have hcount : IsCount (Value.number n).tree (Nat.ofDigitChars 10 (Nat.toDigits 10 n) 0) :=
    .digits (by rwa [Nat.ofDigitChars_ten_toDigits])
  rwa [Nat.ofDigitChars_ten_toDigits] at hcount

/-- A printed list stands for what its elements stand for. -/
theorem isListOf_tree {α : Type} {stands : Tree → α → Prop} {toJson : α → Value}
    (h : ∀ a, stands (toJson a).tree a) (as : List α) :
    IsListOf stands (Value.list (as.map toJson)).tree as := by
  refine .list ?_
  induction as with
  | nil => exact .nil
  | cons a as ih => exact .cons (h a) ih

/-! ### Values that are printed alike -/

mutual

/-- **Different values have different trees.** -/
theorem Value.tree_inj : {v w : Value} → v.tree = w.tree → v = w
  | .null, w, h => by cases w <;> simp_all [Value.tree]
  | .boolean b, w, h => by cases w <;> simp_all [Value.tree]
  | .number n, w, h => by cases w <;> simp_all [Value.tree, writtenNumeral_inj]
  | .string text, w, h => by cases w <;> simp_all [Value.tree, writtenLexeme_inj]
  | .list items, w, h => by
    cases w with
    | list items' =>
      simp only [Value.tree, Tree.list.injEq, and_true] at h
      rw [itemTrees_inj h]
    | _ => simp [Value.tree] at h
  | .object members, w, h => by
    cases w with
    | object members' =>
      simp only [Value.tree, Tree.object.injEq, and_true] at h
      rw [memberTrees_inj h]
    | _ => simp [Value.tree] at h

theorem itemTrees_inj : {items items' : List Value} → itemTrees items = itemTrees items' →
    items = items'
  | [], [], _ => rfl
  | item :: items, item' :: items', h => by
    obtain ⟨hitem, hitems⟩ := List.cons.inj h
    rw [Value.tree_inj hitem, itemTrees_inj hitems]

theorem memberTrees_inj : {members members' : List (String × Value)} →
    memberTrees members = memberTrees members' → members = members'
  | [], [], _ => rfl
  | (key, value) :: members, (key', value') :: members', h => by
    obtain ⟨hmember, hmembers⟩ := List.cons.inj h
    obtain ⟨hkey, hvalue⟩ := Prod.mk.inj hmember
    rw [writtenLexeme_inj.mp hkey, Value.tree_inj hvalue, memberTrees_inj hmembers]

end

/-- A text spells one tree. -/
theorem IsDocument.unique {text : String} {t t' : Tree} (h : IsDocument text.toList t)
    (h' : IsDocument text.toList t') : t = t' := by
  have hscan := (scan_eq_iff.mpr h).1.symm.trans (scan_eq_iff.mpr h').1
  exact congrArg Document.tree hscan

/-- **Values that are printed alike are the same.** -/
theorem Value.text_inj {v w : Value} : v.text = w.text ↔ v = w := by
  refine ⟨fun h => Value.tree_inj ?_, congrArg Value.text⟩
  have hv := v.isDocument_text
  rw [h] at hv
  exact hv.unique w.isDocument_text

end Json

end ClassAtlas
