/-!
# What a JSON text spells

Reading a text and judging it are two things. `ClassAtlas.Json.Tree` is what a text spells
**as far as it makes sense**: where it stops making sense the tree has a leaf or an ending that
says how, and nothing after that point is looked at. Whether such a place is an error, and
which, depends on what is wanted there: a string that is only passed over may hold half of a
surrogate pair, and a comma before the end of a list is called differently in a list that is
passed over. So the tree keeps strings in pieces (`ClassAtlas.Json.Lexeme`) and numbers in
digits (`ClassAtlas.Json.Numeral`), and the judgement is left to its readers, which go through
a tree from left to right and so find the first thing that is wrong.
-/

namespace ClassAtlas

namespace Json

/-! ### Strings and numbers -/

/-- A piece of the text between the quotes of a string. -/
inductive Piece where
  /-- A character that stands for itself. -/
  | plain (c : Char)
  /-- The character that a backslash and one letter stand for. -/
  | escaped (c : Char)
  /-- A backslash, the letter `u` and four hexadecimal digits of this value. -/
  | unit (code : Nat)
  deriving DecidableEq, Repr, Inhabited

/-- How a string ends. -/
inductive StringEnd where
  /-- With its closing quote. -/
  | closed
  /-- With the end of the text, or fewer than four bytes before it after `\u`. -/
  | cut
  /-- At a control character. -/
  | control
  /-- At a backslash that is followed by no escape. -/
  | badEscape
  /-- At `\u` and four bytes that are not all hexadecimal digits. -/
  | badHex
  deriving DecidableEq, Repr, Inhabited

/-- **A string as it is written**: its pieces, and how it ends. -/
structure Lexeme where
  /-- The pieces between the quotes. -/
  pieces : List Piece
  /-- How the string ends. -/
  ending : StringEnd
  deriving DecidableEq, Repr, Inhabited

/-- A lexeme with one more piece in front. -/
def Lexeme.cons (p : Piece) (l : Lexeme) : Lexeme :=
  { l with pieces := p :: l.pieces }

/-- **A number as it is written.** -/
structure Numeral where
  /-- A minus sign stands in front. -/
  negative : Bool
  /-- The digits before the point. -/
  whole : List Char
  /-- The digits after the point, if there is one. -/
  fraction : Option (List Char)
  /-- Whether the exponent is negative, and its digits, if there is one. -/
  exponent : Option (Bool × List Char)
  deriving DecidableEq, Repr, Inhabited

/-! ### Values -/

/-- How a list ends. -/
inductive ListEnd where
  /-- With its closing bracket. -/
  | closed
  /-- With the end of the text where an element, a comma or the bracket could stand. -/
  | cut
  /-- After an element, at something else than a comma or the bracket. -/
  | unseparated
  /-- With a comma and the closing bracket. -/
  | trailingComma
  /-- With a comma and the end of the text. -/
  | cutAfterComma
  deriving DecidableEq, Repr, Inhabited

/-- How an object ends. -/
inductive ObjectEnd where
  /-- With its closing brace. -/
  | closed
  /-- With the end of the text where a member, a comma or the brace could stand. -/
  | cut
  /-- After a member, at something else than a comma or the brace. -/
  | unseparated
  /-- With a comma and the closing brace. -/
  | trailingComma
  /-- With a comma and the end of the text. -/
  | cutAfterComma
  /-- At something else than a string where a key has to stand. -/
  | noKey
  /-- After a key, with the end of the text instead of a colon. -/
  | cutAfterKey (key : Lexeme)
  /-- After a key, at something else than a colon. -/
  | noColon (key : Lexeme)
  deriving DecidableEq, Repr, Inhabited

/-- **What a text spells**, as far as it makes sense. -/
inductive Tree where
  /-- The word `null`. -/
  | null
  /-- The word `true` or `false`. -/
  | boolean (value : Bool)
  /-- A number. -/
  | number (numeral : Numeral)
  /-- A string. -/
  | string (lexeme : Lexeme)
  /-- A list. -/
  | list (items : List Tree) (ending : ListEnd)
  /-- An object. -/
  | object (members : List (Lexeme × Tree)) (ending : ObjectEnd)
  /-- The text ends where a value has to stand. -/
  | missing
  /-- Something that starts no value. -/
  | junk
  /-- A word that starts like one of the three and goes on differently, or is cut off. -/
  | badWord (cut : Bool)
  /-- A number that lacks a digit, or the end of the text in its place, or has a superfluous
  zero in front. -/
  | badNumber (cut : Bool)
  deriving Repr, Inhabited

end Json

end ClassAtlas
