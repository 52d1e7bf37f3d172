import Mathlib.Data.List.Forall2
import Mathlib.Data.Nat.Digits.Defs
import ClassAtlas.Json.Reading
/-!
# The grammar of a JSON text

How a value may be spelt, said without a scanner. `ClassAtlas.Json.Tree.SpeltAs` relates a tree to
the texts that spell it completely: nothing is cut off in them and nothing is out of place. What
the grammar leaves open – blanks between the parts, one of several escapes for a character, the
case of a hexadecimal digit and of the letter of an exponent – is left open here, and what the
tree keeps of a text is its pieces and digits, so a string may hold half of a surrogate pair and a
number may have any size. `ClassAtlas.Json.IsDocument` adds the blanks around a whole text.

The rest of a list after one of its elements is the end of the list or a comma and further
elements. It has a relation of its own (`ClassAtlas.Json.SpeltMoreItems`), so that a comma stands
between two elements and nowhere else; the members of an object are treated likewise.
-/

namespace ClassAtlas

namespace Json

/-- **Blanks** between the parts of a text. -/
def IsBlank (s : List Char) : Prop :=
  ∀ c ∈ s, c = ' ' ∨ c = '\t' ∨ c = '\n' ∨ c = '\r'

/-! ### Numbers -/

/-- A run of at least one digit. -/
def IsDigits (ds : List Char) : Prop :=
  ds ≠ [] ∧ ∀ d ∈ ds, d.isDigit

/-- The digits before the point have no superfluous zero in front. -/
def IsWhole (ds : List Char) : Prop :=
  IsDigits ds ∧ (ds.head? = some '0' → ds = ['0'])

/-- The point and the digits after it, if there are any. -/
inductive SpeltFraction : Option (List Char) → List Char → Prop
  | none : SpeltFraction none []
  | some {ds : List Char} (digits : IsDigits ds) : SpeltFraction (some ds) ('.' :: ds)

/-- The sign of an exponent, of which a plus may be left out. -/
inductive SpeltSign : Bool → List Char → Prop
  | none : SpeltSign false []
  | plus : SpeltSign false ['+']
  | minus : SpeltSign true ['-']

/-- The letter of an exponent, its sign and its digits, if there is an exponent. -/
inductive SpeltExponent : Option (Bool × List Char) → List Char → Prop
  | none : SpeltExponent none []
  | some {letter : Char} {negative : Bool} {sign ds : List Char}
      (isLetter : letter = 'e' ∨ letter = 'E') (spelt : SpeltSign negative sign)
      (digits : IsDigits ds) : SpeltExponent (some (negative, ds)) (letter :: (sign ++ ds))

/-- **The spelling of a number.** -/
inductive Numeral.SpeltAs (n : Numeral) : List Char → Prop
  | intro {fraction exponent : List Char} (isWhole : IsWhole n.whole)
      (hfraction : SpeltFraction n.fraction fraction)
      (hexponent : SpeltExponent n.exponent exponent) :
      n.SpeltAs ((if n.negative then ['-'] else []) ++ n.whole ++ fraction ++ exponent)

/-! ### Strings -/

/-- The letters that may follow a backslash, each with the character it stands for. -/
def escapes : List (Char × Char) :=
  [('"', '"'), ('\\', '\\'), ('/', '/'), ('b', '\x08'), ('f', '\x0c'), ('n', '\n'), ('r', '\r'),
    ('t', '\t')]

/-- A hexadecimal digit of either case and its value. -/
def IsHexDigit (c : Char) (n : Nat) : Prop :=
  "0123456789abcdef".toList[n]? = some c ∨ "0123456789ABCDEF".toList[n]? = some c

/-- **The spelling of a piece of a string.** -/
inductive Piece.SpeltAs : Piece → List Char → Prop
  | plain {c : Char} (quote : c ≠ '"') (backslash : c ≠ '\\') (control : 0x20 ≤ c.toNat) :
      (Piece.plain c).SpeltAs [c]
  | escaped {letter c : Char} (escape : (letter, c) ∈ escapes) :
      (Piece.escaped c).SpeltAs ['\\', letter]
  | unit {a b c d : Char} {i j k l : Nat} (ha : IsHexDigit a i) (hb : IsHexDigit b j)
      (hc : IsHexDigit c k) (hd : IsHexDigit d l) :
      (Piece.unit (Nat.ofDigits 16 [l, k, j, i])).SpeltAs ['\\', 'u', a, b, c, d]

/-- The spelling of the pieces between the quotes of a string. -/
inductive SpeltPieces : List Piece → List Char → Prop
  | nil : SpeltPieces [] []
  | cons {p : Piece} {pieces : List Piece} {s more : List Char} (piece : p.SpeltAs s)
      (rest : SpeltPieces pieces more) : SpeltPieces (p :: pieces) (s ++ more)

/-- **The spelling of a string.** -/
inductive Lexeme.SpeltAs : Lexeme → List Char → Prop
  | intro {pieces : List Piece} {s : List Char} (spelt : SpeltPieces pieces s) :
      Lexeme.SpeltAs ⟨pieces, .closed⟩ ('"' :: (s ++ ['"']))

/-! ### Values -/

mutual

/-- **The spelling of a value.** -/
inductive Tree.SpeltAs : Tree → List Char → Prop
  | null : Tree.null.SpeltAs ['n', 'u', 'l', 'l']
  | true : (Tree.boolean true).SpeltAs ['t', 'r', 'u', 'e']
  | false : (Tree.boolean false).SpeltAs ['f', 'a', 'l', 's', 'e']
  | number {n : Numeral} {s : List Char} (spelt : n.SpeltAs s) : (Tree.number n).SpeltAs s
  | string {l : Lexeme} {s : List Char} (spelt : l.SpeltAs s) : (Tree.string l).SpeltAs s
  | emptyList {s : List Char} (blank : IsBlank s) :
      (Tree.list [] .closed).SpeltAs ('[' :: (s ++ [']']))
  | list {items : List Tree} {s : List Char} (spelt : SpeltItems items s) :
      (Tree.list items .closed).SpeltAs ('[' :: (s ++ [']']))
  | emptyObject {s : List Char} (blank : IsBlank s) :
      (Tree.object [] .closed).SpeltAs ('\x7b' :: (s ++ ['\x7d']))
  | object {members : List (Lexeme × Tree)} {s : List Char} (spelt : SpeltMembers members s) :
      (Tree.object members .closed).SpeltAs ('\x7b' :: (s ++ ['\x7d']))

/-- The spelling of the elements of a list, of which there is at least one. -/
inductive SpeltItems : List Tree → List Char → Prop
  | cons {item : Tree} {items : List Tree} {before s more : List Char} (blank : IsBlank before)
      (spelt : item.SpeltAs s) (rest : SpeltMoreItems items more) :
      SpeltItems (item :: items) (before ++ s ++ more)

/-- What stands in a list after one of its elements. -/
inductive SpeltMoreItems : List Tree → List Char → Prop
  | nil {after : List Char} (blank : IsBlank after) : SpeltMoreItems [] after
  | comma {items : List Tree} {after s : List Char} (blank : IsBlank after)
      (spelt : SpeltItems items s) : SpeltMoreItems items (after ++ ',' :: s)

/-- The spelling of the members of an object, of which there is at least one. -/
inductive SpeltMembers : List (Lexeme × Tree) → List Char → Prop
  | cons {key : Lexeme} {value : Tree} {members : List (Lexeme × Tree)}
      {before k beforeColon afterColon s more : List Char} (blank : IsBlank before)
      (speltKey : key.SpeltAs k) (blankBefore : IsBlank beforeColon)
      (blankAfter : IsBlank afterColon) (spelt : value.SpeltAs s)
      (rest : SpeltMoreMembers members more) :
      SpeltMembers ((key, value) :: members)
        (before ++ k ++ beforeColon ++ ':' :: (afterColon ++ s ++ more))

/-- What stands in an object after one of its members. -/
inductive SpeltMoreMembers : List (Lexeme × Tree) → List Char → Prop
  | nil {after : List Char} (blank : IsBlank after) : SpeltMoreMembers [] after
  | comma {members : List (Lexeme × Tree)} {after s : List Char} (blank : IsBlank after)
      (spelt : SpeltMembers members s) : SpeltMoreMembers members (after ++ ',' :: s)

end

/-- **A whole text** is one value with blanks around it. -/
inductive IsDocument (text : List Char) (t : Tree) : Prop
  | intro {before spelt after : List Char} (eq : text = before ++ spelt ++ after)
      (blankBefore : IsBlank before) (blankAfter : IsBlank after) (h : t.SpeltAs spelt)

end Json

end ClassAtlas
