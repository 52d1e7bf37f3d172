/-!
# Bytes read as text

A file that has to hold text is refused when its bytes are not well-formed UTF-8, but the
output of a program is always made into text. `ClassAtlas.Text.Utf8.lossy` does the second:
a well-formed sequence gives its character, and each **maximal ill-formed part** – a leading
byte with as many following bytes as fit it, or a single byte that leads nothing – gives one
replacement character. Which bytes may follow a leading byte is the table
`ClassAtlas.Text.Utf8.followers`.
-/

namespace ClassAtlas

namespace Text

namespace Utf8

/-- The character that stands for an ill-formed part. -/
def replacement : Char := '\ufffd'

/-- A closed range of byte values. -/
structure ByteRange where
  /-- The least value in the range. -/
  low : Nat
  /-- The greatest value in the range. -/
  high : Nat

/-- A byte lies in the range. -/
def ByteRange.has (range : ByteRange) (b : UInt8) : Bool :=
  range.low ≤ b.toNat && b.toNat ≤ range.high

/-- The range of a following byte that is under no further restriction. -/
def follower : ByteRange := ⟨0x80, 0xBF⟩

/-- **Well-formed sequences**: the ranges of the bytes that have to follow a leading byte, or
`none` for a byte that leads no sequence. The narrowed ranges exclude overlong forms,
surrogates and values above `10FFFF`. -/
def followers (lead : UInt8) : Option (List ByteRange) :=
  let n := lead.toNat
  if n < 0x80 then some []
  else if n < 0xC2 then none
  else if n < 0xE0 then some [follower]
  else if n = 0xE0 then some [⟨0xA0, 0xBF⟩, follower]
  else if n = 0xED then some [⟨0x80, 0x9F⟩, follower]
  else if n < 0xF0 then some [follower, follower]
  else if n = 0xF0 then some [⟨0x90, 0xBF⟩, follower, follower]
  else if n < 0xF4 then some [follower, follower, follower]
  else if n = 0xF4 then some [⟨0x80, 0x8F⟩, follower, follower]
  else none

/-- The bits that a leading byte with so many following bytes contributes to the code point. -/
def leadBits (lead : UInt8) : Nat → Nat
  | 0 => lead.toNat
  | 1 => lead.toNat % 32
  | 2 => lead.toNat % 16
  | _ => lead.toNat % 8

/-- Reads following bytes as long as each lies in its range, adding their six bits to `code`:
the code point, or `none` where a byte does not fit, and the bytes that were not read. -/
def readFollowers : List ByteRange → Nat → List UInt8 → Option Nat × List UInt8
  | [], code, bytes => (some code, bytes)
  | _ :: _, _, [] => (none, [])
  | range :: ranges, code, b :: bytes =>
      if range.has b then readFollowers ranges (code * 64 + b.toNat % 64) bytes
      else (none, b :: bytes)

theorem length_readFollowers_le (ranges : List ByteRange) (code : Nat) (bytes : List UInt8) :
    (readFollowers ranges code bytes).2.length ≤ bytes.length := by
  fun_induction readFollowers ranges code bytes with
  | case1 => simp
  | case2 => simp
  | case3 code range ranges b bytes h ih => simp; omega
  | case4 => simp

/-- **Bytes as characters**, with one replacement character for each maximal ill-formed
part. -/
def lossyChars : List UInt8 → List Char
  | [] => []
  | lead :: bytes =>
      match followers lead with
      | none => replacement :: lossyChars bytes
      | some ranges =>
          let tail := readFollowers ranges (leadBits lead ranges.length) bytes
          (tail.1.map Char.ofNat).getD replacement :: lossyChars tail.2
termination_by bytes => bytes.length
decreasing_by
  · simp
  · have := length_readFollowers_le ranges (leadBits lead ranges.length) bytes
    simp; omega

/-- Bytes as text: the text that they encode, and otherwise one replacement character for each
maximal ill-formed part. -/
def lossy (bytes : ByteArray) : String :=
  (String.fromUTF8? bytes).getD (String.ofList (lossyChars bytes.data.toList))

end Utf8

end Text

end ClassAtlas
