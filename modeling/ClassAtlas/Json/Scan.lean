import ClassAtlas.Json.Tree
/-!
# Scanning a JSON text

`ClassAtlas.Json.Document.scan` finds what a text spells. A scanning function takes the
characters that are left and gives what it found together with the characters after it. Where
the text stops making sense there is nothing after it, so every caller sees the end of the text
there and stops too. The characters left over are never more than before, which is part of the
types (`ClassAtlas.Json.Rest`) and the reason why scanning ends.
-/

namespace ClassAtlas

namespace Json

/-! ### Blanks and words -/

/-- The four characters that may stand between the parts of a JSON text. -/
def isSpace (c : Char) : Bool :=
  c == ' ' || c == '\t' || c == '\n' || c == '\r'

/-- The characters without the spaces in front. -/
def skipSpace (s : List Char) : List Char :=
  s.dropWhile isSpace

theorem length_skipSpace_le (s : List Char) : (skipSpace s).length ≤ s.length :=
  (List.dropWhile_suffix isSpace).length_le

/-- **What is left of a text**: at most as many characters as there were. -/
abbrev Rest (s : List Char) : Type :=
  { r : List Char // r.length ≤ s.length }

/-- Nothing is left. -/
def Rest.none {s : List Char} : Rest s :=
  ⟨[], by simp⟩

/-- What is left of what was left. -/
def Rest.trans {s : List Char} (r : Rest s) (q : Rest r.val) : Rest s :=
  ⟨q.val, Nat.le_trans q.property r.property⟩

/-- What is left of a text that is left of a longer one. -/
def Rest.widen {s t : List Char} (h : s.length ≤ t.length) (r : Rest s) : Rest t :=
  ⟨r.val, Nat.le_trans r.property h⟩

/-- The characters after the given word. Otherwise `cut` says whether the text ended inside
the word. -/
def matchWord : List Char → (s : List Char) → Except Bool (Rest s)
  | [], s => .ok ⟨s, Nat.le_refl _⟩
  | _ :: _, [] => .error true
  | w :: word, c :: s =>
      if c = w then
        match matchWord word s with
        | .ok r => .ok (r.widen (by simp))
        | .error cut => .error cut
      else .error false

/-- The value `found` if the rest of its word follows. -/
def scanWord (word : List Char) (found : Tree) (s : List Char) : Tree × Rest s :=
  match matchWord word s with
  | .ok r => (found, r)
  | .error cut => (.badWord cut, .none)

/-! ### Numbers -/

/-- The longest run of digits in front. -/
def takeDigits (s : List Char) : List Char :=
  s.takeWhile Char.isDigit

/-- The characters after the longest run of digits in front. -/
def dropDigits (s : List Char) : List Char :=
  s.dropWhile Char.isDigit

theorem length_dropDigits_le (s : List Char) : (dropDigits s).length ≤ s.length :=
  (List.dropWhile_suffix Char.isDigit).length_le

/-- A run of at least one digit. Otherwise the error says whether the text ended there. -/
def scanDigits (s : List Char) : Except Bool (List Char × Rest s) :=
  match takeDigits s with
  | [] => .error s.isEmpty
  | d :: ds => .ok (d :: ds, ⟨dropDigits s, length_dropDigits_le s⟩)

/-- The digits before the point, of which `c` is the first: one zero, or a run that starts
with another digit. -/
def scanWhole (c : Char) (s : List Char) : Except Bool (List Char × Rest s) :=
  if c = '0' then
    if (takeDigits s).isEmpty then .ok (['0'], ⟨s, Nat.le_refl _⟩) else .error false
  else if c.isDigit then .ok (c :: takeDigits s, ⟨dropDigits s, length_dropDigits_le s⟩)
  else .error false

/-- The point and the digits after it, if a point stands here. -/
def scanFraction (s : List Char) : Except Bool (Option (List Char) × Rest s) :=
  match s with
  | '.' :: r =>
      match scanDigits r with
      | .ok (ds, q) => .ok (some ds, q.widen (by simp))
      | .error cut => .error cut
  | s => .ok (none, ⟨s, Nat.le_refl _⟩)

/-- The sign of an exponent, plus if there is none. -/
def scanSign (s : List Char) : Bool × Rest s :=
  match s with
  | '+' :: r => (false, ⟨r, by simp⟩)
  | '-' :: r => (true, ⟨r, by simp⟩)
  | s => (false, ⟨s, Nat.le_refl _⟩)

/-- The letter of an exponent, its sign and its digits, if the letter stands here. -/
def scanExponent (s : List Char) : Except Bool (Option (Bool × List Char) × Rest s) :=
  match s with
  | [] => .ok (none, ⟨[], Nat.le_refl _⟩)
  | c :: r =>
      if c = 'e' ∨ c = 'E' then
        let (negative, afterSign) := scanSign r
        match scanDigits afterSign.val with
        | .ok (ds, q) => .ok (some (negative, ds), (afterSign.trans q).widen (by simp))
        | .error cut => .error cut
      else .ok (none, ⟨c :: r, Nat.le_refl _⟩)

/-- A number after its sign, with `c` as its first character. -/
def scanNumeral (negative : Bool) (c : Char) (s : List Char) : Tree × Rest s :=
  match scanWhole c s with
  | .error cut => (.badNumber cut, .none)
  | .ok (whole, r) =>
      match scanFraction r.val with
      | .error cut => (.badNumber cut, .none)
      | .ok (fraction, q) =>
          match scanExponent q.val with
          | .error cut => (.badNumber cut, .none)
          | .ok (exponent, p) =>
              (.number ⟨negative, whole, fraction, exponent⟩, r.trans (q.trans p))

/-- A number after a minus sign. -/
def scanNegative (s : List Char) : Tree × Rest s :=
  match s with
  | [] => (.badNumber true, .none)
  | c :: r =>
      let (t, q) := scanNumeral true c r
      (t, q.widen (by simp))

/-! ### Strings -/

/-- The character that a backslash and the given letter stand for. -/
def escapeOf : Char → Option Char
  | '"' => some '"'
  | '\\' => some '\\'
  | '/' => some '/'
  | 'b' => some '\x08'
  | 'f' => some '\x0c'
  | 'n' => some '\n'
  | 'r' => some '\r'
  | 't' => some '\t'
  | _ => none

/-- The value of a hexadecimal digit of either case. -/
def hexDigit (c : Char) : Option Nat :=
  let n := c.toNat
  if 0x30 ≤ n ∧ n ≤ 0x39 then some (n - 0x30)
  else if 0x41 ≤ n ∧ n ≤ 0x46 then some (n - 0x41 + 10)
  else if 0x61 ≤ n ∧ n ≤ 0x66 then some (n - 0x61 + 10)
  else none

/-- The value of four hexadecimal digits. -/
def hexUnit (a b c d : Char) : Option Nat := do
  let a ← hexDigit a
  let b ← hexDigit b
  let c ← hexDigit c
  let d ← hexDigit d
  return ((a * 16 + b) * 16 + c) * 16 + d

/-- The number of bytes that a text takes in UTF-8. -/
def utf8Length : List Char → Nat
  | [] => 0
  | c :: s => c.utf8Size + utf8Length s

/-- A string that ends here, badly. -/
def brokenString {s : List Char} (ending : StringEnd) : Lexeme × Rest s :=
  (⟨[], ending⟩, .none)

/-- **A string** after its opening quote. -/
def scanString : (s : List Char) → Lexeme × Rest s
  | [] => brokenString .cut
  | '"' :: r => (⟨[], .closed⟩, ⟨r, by simp⟩)
  | '\\' :: [] => brokenString .cut
  | '\\' :: 'u' :: a :: b :: c :: d :: r =>
      match hexUnit a b c d with
      | some code =>
          let (l, q) := scanString r
          (l.cons (.unit code), q.widen (by simp; omega))
      | none => brokenString .badHex
  | '\\' :: 'u' :: r => brokenString (if utf8Length r < 4 then .cut else .badHex)
  | '\\' :: e :: r =>
      match escapeOf e with
      | some c =>
          let (l, q) := scanString r
          (l.cons (.escaped c), q.widen (by simp; omega))
      | none => brokenString .badEscape
  | c :: r =>
      if c.toNat < 0x20 then brokenString .control
      else
        let (l, q) := scanString r
        (l.cons (.plain c), q.widen (by simp))

/-! ### Values -/

theorem length_lt_of_skipSpace {s r : List Char} {c : Char} (h : skipSpace s = c :: r) :
    r.length < s.length := by
  have := length_skipSpace_le s
  rw [h, List.length_cons] at this
  omega

mutual

/-- **A value** whose first character is `c`. -/
def scanValue (c : Char) (s : List Char) : Tree × Rest s :=
  if c = 'n' then scanWord ['u', 'l', 'l'] .null s
  else if c = 't' then scanWord ['r', 'u', 'e'] (.boolean true) s
  else if c = 'f' then scanWord ['a', 'l', 's', 'e'] (.boolean false) s
  else if c = '-' then scanNegative s
  else if c.isDigit then scanNumeral false c s
  else if c = '"' then
    let (lexeme, r) := scanString s
    (.string lexeme, r)
  else if c = '[' then
    let (items, ending, r) := scanItems s
    (.list items ending, r)
  else if c = '\x7b' then
    let (members, ending, r) := scanMembers s
    (.object members ending, r)
  else (.junk, .none)
termination_by 3 * s.length + 1

/-- The elements of a list after its opening bracket. -/
def scanItems (s : List Char) : List Tree × ListEnd × Rest s :=
  match h : skipSpace s with
  | [] => ([], .cut, .none)
  | c :: r =>
      have hr : r.length < s.length := length_lt_of_skipSpace h
      if c = ']' then ([], .closed, ⟨r, Nat.le_of_lt hr⟩)
      else
        let (items, ending, q) := scanItem c r
        (items, ending, q.widen (Nat.le_of_lt hr))
termination_by 3 * s.length

/-- The elements of a list from the one on whose first character is `c`. -/
def scanItem (c : Char) (s : List Char) : List Tree × ListEnd × Rest s :=
  let (value, r) := scanValue c s
  have := r.property
  let (items, ending, q) := scanMoreItems r.val
  (value :: items, ending, r.trans q)
termination_by 3 * s.length + 2

/-- The elements of a list after one of them. -/
def scanMoreItems (s : List Char) : List Tree × ListEnd × Rest s :=
  match h : skipSpace s with
  | [] => ([], .cut, .none)
  | c :: r =>
      have hr : r.length < s.length := length_lt_of_skipSpace h
      if c = ']' then ([], .closed, ⟨r, Nat.le_of_lt hr⟩)
      else if c = ',' then
        match g : skipSpace r with
        | [] => ([], .cutAfterComma, .none)
        | d :: q =>
            have hq : q.length < r.length := length_lt_of_skipSpace g
            if d = ']' then ([], .trailingComma, .none)
            else
              let (items, ending, p) := scanItem d q
              (items, ending, p.widen (Nat.le_of_lt (Nat.lt_trans hq hr)))
      else ([], .unseparated, .none)
termination_by 3 * s.length

/-- The members of an object after its opening brace. -/
def scanMembers (s : List Char) : List (Lexeme × Tree) × ObjectEnd × Rest s :=
  match h : skipSpace s with
  | [] => ([], .cut, .none)
  | c :: r =>
      have hr : r.length < s.length := length_lt_of_skipSpace h
      if c = '\x7d' then ([], .closed, ⟨r, Nat.le_of_lt hr⟩)
      else if c = '"' then
        let (members, ending, q) := scanMember r
        (members, ending, q.widen (Nat.le_of_lt hr))
      else ([], .noKey, .none)
termination_by 3 * s.length

/-- The members of an object from the one on whose key has been opened. -/
def scanMember (s : List Char) : List (Lexeme × Tree) × ObjectEnd × Rest s :=
  let (key, r) := scanString s
  have hr := r.property
  match h : skipSpace r.val with
  | [] => ([], .cutAfterKey key, .none)
  | c :: q =>
      have hq : q.length < r.val.length := length_lt_of_skipSpace h
      if c = ':' then
        match g : skipSpace q with
        | [] => ([(key, .missing)], .cut, .none)
        | d :: p =>
            have hp : p.length < q.length := length_lt_of_skipSpace g
            let (value, o) := scanValue d p
            have ho := o.property
            let (members, ending, n) := scanMoreMembers o.val
            ((key, value) :: members, ending, (o.trans n).widen (by omega))
      else ([], .noColon key, .none)
termination_by 3 * s.length + 2

/-- The members of an object after one of them. -/
def scanMoreMembers (s : List Char) : List (Lexeme × Tree) × ObjectEnd × Rest s :=
  match h : skipSpace s with
  | [] => ([], .cut, .none)
  | c :: r =>
      have hr : r.length < s.length := length_lt_of_skipSpace h
      if c = '\x7d' then ([], .closed, ⟨r, Nat.le_of_lt hr⟩)
      else if c = ',' then
        match g : skipSpace r with
        | [] => ([], .cutAfterComma, .none)
        | d :: q =>
            have hq : q.length < r.length := length_lt_of_skipSpace g
            if d = '\x7d' then ([], .trailingComma, .none)
            else if d = '"' then
              let (members, ending, p) := scanMember q
              (members, ending, p.widen (Nat.le_of_lt (Nat.lt_trans hq hr)))
            else ([], .noKey, .none)
      else ([], .unseparated, .none)
termination_by 3 * s.length

end

/-- **A whole text**: what it spells, and whether anything but spaces follows. -/
structure Document where
  /-- What the text spells. -/
  tree : Tree
  /-- Something follows the value. -/
  trailing : Bool

/-- Scans a whole text. -/
def Document.scan (text : String) : Document :=
  match skipSpace text.toList with
  | [] => ⟨.missing, false⟩
  | c :: s =>
      let (tree, r) := scanValue c s
      ⟨tree, !(skipSpace r.val).isEmpty⟩

end Json

end ClassAtlas
