/-!
# Writing JSON

Everything that is written is first a `ClassAtlas.Json.Value`, whose objects keep their members
in order, and then printed over several lines (`ClassAtlas.Json.Value.pretty`): two blanks for
each level, one element or member on a line, and an empty list or object on one line. In a
string only the quote, the backslash and control characters are escaped.
-/

namespace ClassAtlas

namespace Json

/-- **A value to be written.** -/
inductive Value where
  /-- The word `null`. -/
  | null
  /-- A truth value. -/
  | boolean (value : Bool)
  /-- A natural number. -/
  | number (value : Nat)
  /-- A string. -/
  | string (text : String)
  /-- A list. -/
  | list (items : List Value)
  /-- An object with its members in order. -/
  | object (members : List (String × Value))
  deriving Repr, Inhabited

/-! ### Strings -/

/-- A hexadecimal digit in lower case. -/
def hexChar (n : Nat) : Char :=
  Nat.digitChar n

/-- **A character inside a string.** -/
def writtenChar (c : Char) : List Char :=
  if c = '"' then ['\\', '"']
  else if c = '\\' then ['\\', '\\']
  else if c = '\n' then ['\\', 'n']
  else if c = '\r' then ['\\', 'r']
  else if c = '\t' then ['\\', 't']
  else if c = '\x08' then ['\\', 'b']
  else if c = '\x0c' then ['\\', 'f']
  else if c.toNat < 0x20 then
    ['\\', 'u', '0', '0', hexChar (c.toNat / 16), hexChar (c.toNat % 16)]
  else [c]

/-- A string between its quotes. -/
def writtenString (text : String) : List Char :=
  '"' :: (text.toList.flatMap writtenChar ++ ['"'])

/-! ### Values -/

/-- A new line and the blanks of a level. -/
def newLine (level : Nat) : List Char :=
  '\n' :: List.replicate (2 * level) ' '

mutual

/-- **The text of a value** whose own line is on the given level. -/
def Value.pretty (level : Nat) : Value → List Char
  | .null => ['n', 'u', 'l', 'l']
  | .boolean true => ['t', 'r', 'u', 'e']
  | .boolean false => ['f', 'a', 'l', 's', 'e']
  | .number n => Nat.toDigits 10 n
  | .string text => writtenString text
  | .list [] => ['[', ']']
  | .list (item :: items) =>
      '[' :: newLine (level + 1) ++ item.pretty (level + 1) ++ prettyItems (level + 1) items ++
        newLine level ++ [']']
  | .object [] => ['\x7b', '\x7d']
  | .object ((key, value) :: members) =>
      '\x7b' :: newLine (level + 1) ++ writtenString key ++ [':', ' '] ++
        value.pretty (level + 1) ++ prettyMembers (level + 1) members ++ newLine level ++
        ['\x7d']

/-- The elements of a list after one of them. -/
def prettyItems (level : Nat) : List Value → List Char
  | [] => []
  | item :: items => ',' :: newLine level ++ item.pretty level ++ prettyItems level items

/-- The members of an object after one of them. -/
def prettyMembers (level : Nat) : List (String × Value) → List Char
  | [] => []
  | (key, value) :: members =>
      ',' :: newLine level ++ writtenString key ++ [':', ' '] ++ value.pretty level ++
        prettyMembers level members

end

/-- The text of a whole value. -/
def Value.text (value : Value) : String :=
  String.ofList (value.pretty 0)

/-- A member of an object that is left out where there is no value. -/
def Value.optional (key : String) (value : Option Value) : List (String × Value) :=
  match value with
  | none => []
  | some v => [(key, v)]

end Json

end ClassAtlas
