import ClassAtlas.Json.Number
/-!
# Reading values

A reader goes through a `ClassAtlas.Json.Tree` from left to right and gives a value or the
first fault. `ClassAtlas.Json.Tree.skip` is the reader for a value that nobody wants: it accepts
every well-formed value and does not look at surrogates or at the size of a number. A wanted
scalar of another type is read completely before it is refused
(`ClassAtlas.Json.Tree.mismatch`), so a fault inside it comes first; a list or an object is
refused at its first character.
-/

namespace ClassAtlas

namespace Json

/-! ### Strings -/

/-- The fault of a string that ends in this way, if it is one. -/
def StringEnd.check : StringEnd → Except Fault Unit
  | .closed => .ok ()
  | .cut => .error .endInString
  | .control => .error .controlCharacter
  | .badEscape => .error .badEscape
  | .badHex => .error .badEscape

/-- A string that is passed over only has to end with its quote. -/
def Lexeme.skip (l : Lexeme) : Except Fault Unit :=
  l.ending.check

/-- The first half of a surrogate pair. -/
def isHighSurrogate (code : Nat) : Bool :=
  0xD800 ≤ code && code ≤ 0xDBFF

/-- The second half of a surrogate pair. -/
def isLowSurrogate (code : Nat) : Bool :=
  0xDC00 ≤ code && code ≤ 0xDFFF

/-- The character of a surrogate pair. -/
def pairChar (high low : Nat) : Char :=
  Char.ofNat (0x10000 + (high - 0xD800) * 0x400 + (low - 0xDC00))

/-- The fault of a string that ends in this way after the first half of a pair. The second half
was looked for, so only an escape that was begun with `\u` has a fault of its own. -/
def StringEnd.afterHalf : StringEnd → Fault
  | .cut => .endInString
  | .badHex => .badEscape
  | _ => .halfPair

/-- **The characters of a string.** Escaped units above the basic plane come in pairs. -/
def joinPieces (ending : StringEnd) : List Piece → Except Fault (List Char)
  | [] => do
      ending.check
      return []
  | .plain c :: r => return c :: (← joinPieces ending r)
  | .escaped c :: r => return c :: (← joinPieces ending r)
  | .unit code :: r =>
      if isLowSurrogate code then throw .loneSurrogate
      else if isHighSurrogate code then
        match r with
        | .unit low :: q =>
            if isLowSurrogate low then return pairChar code low :: (← joinPieces ending q)
            else throw .loneSurrogate
        | [] => throw ending.afterHalf
        | _ :: _ => throw .halfPair
      else return Char.ofNat code :: (← joinPieces ending r)

/-- The text of a string. -/
def Lexeme.text (l : Lexeme) : Except Fault String :=
  (joinPieces l.ending l.pieces).map String.ofList

/-! ### Values that are passed over -/

/-- The fault of a word that is no value. -/
def wordFault (cut : Bool) : Fault :=
  if cut then .endInValue else .noWord

/-- How a list that is passed over may end. A comma before its end promises a value. -/
def ListEnd.skip : ListEnd → Except Fault Unit
  | .closed => .ok ()
  | .cut => .error .endInList
  | .unseparated => .error .listSeparator
  | .trailingComma => .error .noValue
  | .cutAfterComma => .error .endInValue

/-- How an object that is passed over may end. A comma before its end promises a key. -/
def ObjectEnd.skip : ObjectEnd → Except Fault Unit
  | .closed => .ok ()
  | .cut => .error .endInObject
  | .unseparated => .error .objectSeparator
  | .trailingComma => .error .noKey
  | .cutAfterComma => .error .endInObject
  | .noKey => .error .noKey
  | .cutAfterKey key => do
      key.skip
      throw .endInObject
  | .noColon key => do
      key.skip
      throw .noColon

mutual

/-- **Passing over a value.** -/
def Tree.skip : Tree → Except Fault Unit
  | .null => .ok ()
  | .boolean _ => .ok ()
  | .number _ => .ok ()
  | .string lexeme => lexeme.skip
  | .list items ending => do
      skipItems items
      ending.skip
  | .object members ending => do
      skipMembers members
      ending.skip
  | .missing => .error .endInValue
  | .junk => .error .noValue
  | .badWord cut => .error (wordFault cut)
  | .badNumber _ => .error .badNumber

/-- Passing over the elements of a list. -/
def skipItems : List Tree → Except Fault Unit
  | [] => .ok ()
  | item :: items => do
      item.skip
      skipItems items

/-- Passing over the members of an object. -/
def skipMembers : List (Lexeme × Tree) → Except Fault Unit
  | [] => .ok ()
  | (key, value) :: members => do
      key.skip
      value.skip
      skipMembers members

end

/-! ### Wanted values -/

/-- **The fault of a value of another type than the wanted one**, or the fault inside it. -/
def Tree.mismatch (wanted : Wanted) : Tree → Fault
  | .null => .mismatch .null wanted
  | .boolean value => .mismatch (.boolean value) wanted
  | .number numeral =>
      match numeral.found with
      | .ok found => .mismatch found wanted
      | .error fault => fault
  | .string lexeme =>
      match lexeme.text with
      | .ok text => .mismatch (.string text) wanted
      | .error fault => fault
  | .list _ _ => .mismatch .list wanted
  | .object _ _ => .mismatch .object wanted
  | .missing => .endInValue
  | .junk => .noValue
  | .badWord cut => wordFault cut
  | .badNumber cut => if cut then .endInValue else .badNumber

/-- A string, under the given name of its type. -/
def Tree.readText (wanted : Wanted) : Tree → Except Fault String
  | .string lexeme => lexeme.text
  | t => .error (t.mismatch wanted)

/-- A string. -/
def Tree.readString : Tree → Except Fault String :=
  Tree.readText .string

/-- A truth value. -/
def Tree.readBool : Tree → Except Fault Bool
  | .boolean value => .ok value
  | t => .error (t.mismatch .boolean)

/-- A natural number of 64 bits. A negative integer has the right type and a wrong value. -/
def Tree.readCount : Tree → Except Fault Nat
  | .number numeral => do
      match ← numeral.found with
      | .integer (.ofNat n) => return n
      | .integer n => throw (.badValue (.integer n) .count)
      | found => throw (.mismatch found .count)
  | t => .error (t.mismatch .count)

/-- A value that may be absent, which `null` says. -/
def Tree.readOptional {α : Type} (read : Tree → Except Fault α) : Tree → Except Fault (Option α)
  | .null => .ok none
  | t => (read t).map some

/-- How a wanted list may end. -/
def ListEnd.check : ListEnd → Except Fault Unit
  | .closed => .ok ()
  | .cut => .error .endInList
  | .unseparated => .error .listSeparator
  | .trailingComma => .error .trailingComma
  | .cutAfterComma => .error .endInValue

/-- The elements of a wanted list, each read in turn, and then its end. -/
def readItems {τ α : Type} (read : τ → Except Fault α) (ending : ListEnd) :
    List τ → Except Fault (List α)
  | [] => do
      ending.check
      return []
  | item :: items => do
      let a ← read item
      return a :: (← readItems read ending items)

/-- A list. -/
def Tree.readList {α : Type} (read : Tree → Except Fault α) : Tree → Except Fault (List α)
  | .list items ending => readItems read ending items
  | t => .error (t.mismatch .list)

end Json

end ClassAtlas
