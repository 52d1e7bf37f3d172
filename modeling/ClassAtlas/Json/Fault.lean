import ClassAtlas.Text.Quoted
/-!
# What can be wrong with a JSON text

A text is read from left to right and the first thing that is wrong with it is reported.
`ClassAtlas.Json.Fault` lists the causes – the text breaks off, a character stands where it
must not, or a well-formed value is not of the wanted type – and
`ClassAtlas.Json.Fault.message` has the wording of each.

A message also tells the place in the text (`ClassAtlas.Json.Fault.messageIn`). How places are
counted is no matter of what is read, so they are left to a `ClassAtlas.Json.Locator`, of which
nothing is assumed but that the text and the wanted type decide the place.
-/

namespace ClassAtlas

namespace Json

/-- What stands where a value of another type was wanted. -/
inductive Found where
  /-- The word `null`. -/
  | null
  /-- A truth value. -/
  | boolean (value : Bool)
  /-- A number without fraction and exponent, in the range of the machine integers. -/
  | integer (value : Int)
  /-- Any other number, as it is shown. -/
  | floating (shown : String)
  /-- A string. -/
  | string (text : String)
  /-- A list. -/
  | list
  /-- An object. -/
  | object
  deriving DecidableEq, Repr, Inhabited

/-- The type of value that is wanted. -/
inductive Wanted where
  /-- A string. -/
  | string
  /-- A truth value. -/
  | boolean
  /-- A list. -/
  | list
  /-- A natural number of 64 bits. -/
  | count
  /-- The text of a path. -/
  | path
  /-- A record, by the name it has in messages. -/
  | record (name : String)
  deriving DecidableEq, Repr, Inhabited

/-- **The causes** for which a JSON text is refused. -/
inductive Fault where
  /-- The text ends where a value has to stand. -/
  | endInValue
  /-- The text ends inside a string. -/
  | endInString
  /-- The text ends inside a list. -/
  | endInList
  /-- The text ends inside an object. -/
  | endInObject
  /-- A character starts no value. -/
  | noValue
  /-- A word is not one of the three that are values. -/
  | noWord
  /-- A number lacks a digit or has a superfluous zero in front. -/
  | badNumber
  /-- A number is too large for any format. -/
  | numberRange
  /-- A control character stands unescaped in a string. -/
  | controlCharacter
  /-- A backslash is followed by no escape. -/
  | badEscape
  /-- The first half of a surrogate pair is not followed by another escape of its kind. -/
  | halfPair
  /-- An escape gives half of a surrogate pair where it cannot stand. -/
  | loneSurrogate
  /-- An element of a list is followed by something else than a comma or the end. -/
  | listSeparator
  /-- A member of an object is followed by something else than a comma or the end. -/
  | objectSeparator
  /-- A key is not followed by a colon. -/
  | noColon
  /-- A key is not a string. -/
  | noKey
  /-- A comma stands before the end of a list or an object. -/
  | trailingComma
  /-- Something follows where the text should be over. -/
  | trailingText
  /-- A key of a record is given twice. -/
  | duplicateKey (key : String)
  /-- A value has another type than the wanted one. -/
  | mismatch (found : Found) (wanted : Wanted)
  /-- A value has the wanted type but is not one of its values. -/
  | badValue (found : Found) (wanted : Wanted)
  deriving DecidableEq, Repr, Inhabited

/-- The description of a found value. -/
def Found.describe : Found → String
  | .null => "null"
  | .boolean true => "boolean \x60true\x60"
  | .boolean false => "boolean \x60false\x60"
  | .integer value => "integer \x60" ++ toString value ++ "\x60"
  | .floating shown => "floating point \x60" ++ shown ++ "\x60"
  | .string text => "string " ++ Text.quoted text
  | .list => "sequence"
  | .object => "map"

/-- The description of a wanted type. -/
def Wanted.describe : Wanted → String
  | .string => "a string"
  | .boolean => "a boolean"
  | .list => "a sequence"
  | .count => "usize"
  | .path => "path string"
  | .record name => "struct " ++ name

/-- **The message** for a cause. -/
def Fault.message : Fault → String
  | .endInValue => "EOF while parsing a value"
  | .endInString => "EOF while parsing a string"
  | .endInList => "EOF while parsing a list"
  | .endInObject => "EOF while parsing an object"
  | .noValue => "expected value"
  | .noWord => "expected ident"
  | .badNumber => "invalid number"
  | .numberRange => "number out of range"
  | .controlCharacter =>
      "control character (\\u0000-\\u001F) found while parsing a string"
  | .badEscape => "invalid escape"
  | .halfPair => "unexpected end of hex escape"
  | .loneSurrogate => "lone leading surrogate in hex escape"
  | .listSeparator => "expected \x60,\x60 or \x60]\x60"
  | .objectSeparator => "expected \x60,\x60 or \x60\x7d\x60"
  | .noColon => "expected \x60:\x60"
  | .noKey => "key must be a string"
  | .trailingComma => "trailing comma"
  | .trailingText => "trailing characters"
  | .duplicateKey key => "duplicate field \x60" ++ key ++ "\x60"
  | .mismatch found wanted =>
      "invalid type: " ++ found.describe ++ ", expected " ++ wanted.describe
  | .badValue found wanted =>
      "invalid value: " ++ found.describe ++ ", expected " ++ wanted.describe

/-! ### Places -/

/-- **A place in a text.** Lines are counted from one, and line zero stands for no place. -/
structure Place where
  /-- The number of the line. -/
  line : Nat
  /-- The number of the column in the line. -/
  column : Nat
  deriving DecidableEq, Repr, Inhabited

/-- What a message says about a place behind the cause. -/
def Place.describe (place : Place) : String :=
  if place.line = 0 then ""
  else " at line " ++ toString place.line ++ " column " ++ toString place.column

/-- **A locator** tells where the first thing is wrong with a text in which a value of some type is
wanted. -/
abbrev Locator : Type :=
  (wanted : Wanted) → (text : String) → Place

/-- The locator that knows no place. -/
def Locator.nowhere : Locator :=
  fun _ _ => ⟨0, 0⟩

/-- **The message for a cause in a text**, with the place. -/
def Fault.messageIn (locate : Locator) (wanted : Wanted) (text : String) (fault : Fault) :
    String :=
  fault.message ++ (locate wanted text).describe

end Json

end ClassAtlas
