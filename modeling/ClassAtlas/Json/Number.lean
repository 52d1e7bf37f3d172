import ClassAtlas.Decimal.Written
import ClassAtlas.Json.Fault
import ClassAtlas.Json.Tree
/-!
# The value of a number

Digits are gathered into a significand of 64 bits. A number without point and exponent whose
significand and sign fit a machine integer is an integer, and `ClassAtlas.Json.Numeral.found`
gives its value. Every other number is a floating-point number: the digits that no longer fit
only shift the decimal point, and the significand is then multiplied or divided once by the
power of ten. Such a number is never a value of a record, so all that matters of it is how it
is shown and whether it exceeds the format.
-/

namespace ClassAtlas

namespace Json

/-- The greatest significand: all of its 64 bits are set. -/
def maxCount : Nat :=
  0xFFFFFFFFFFFFFFFF

/-- The greatest absolute value of a negative integer. -/
def maxNegative : Nat :=
  0x8000000000000000

/-- The value of a decimal digit. -/
def digitValue (c : Char) : Nat :=
  c.toNat - '0'.toNat

/-- Digits gathered after a value as long as it does not exceed the limit, and the digits that
are left. -/
def gather (limit : Nat) : Nat → List Char → Nat × List Char
  | value, [] => (value, [])
  | value, d :: ds =>
      let next := value * 10 + digitValue d
      if next ≤ limit then gather limit next ds else (value, d :: ds)

/-- A power of ten as a floating-point number. -/
def powerOfTen (n : Nat) : Float :=
  Float.ofScientific 1 false n

/-- A significand divided so often by the greatest power of ten until the exponent that is left
has a power of its own. Three divisions bring every significand to zero, so four rounds are
enough. -/
def scaleDown : Nat → Float → Nat → Float
  | 0, x, _ => x
  | rounds + 1, x, n =>
      if n ≤ 308 then x / powerOfTen n
      else scaleDown rounds (x / powerOfTen 308) (n - 308)

/-- **A significand times a power of ten**, or `none` if that is too large. -/
def scaled (significand : Nat) (exponent : Int) : Option Float :=
  let x := significand.toUInt64.toFloat
  if exponent < 0 then some (scaleDown 4 x (-exponent).toNat)
  else if significand = 0 then some x
  else if exponent ≤ 308 then
    let y := x * powerOfTen exponent.toNat
    if y.isInf then none else some y
  else none

/-- A finite floating-point number with its sign. -/
def signed (negative : Bool) (x : Float) : Found :=
  .floating (Decimal.show64 (if negative then -x else x))

/-- The significand of a number, the exponent that the point and the digits left out give it,
and whether digits before the point were left out. -/
def Numeral.significand (n : Numeral) : Nat × Int × Bool :=
  let (whole, leftOut) := gather maxCount 0 n.whole
  match n.fraction with
  | none => (whole, leftOut.length, !leftOut.isEmpty)
  | some digits =>
      let (value, ignored) := gather maxCount whole digits
      (value, leftOut.length - ((digits.length - ignored.length : Nat) : Int), !leftOut.isEmpty)

/-- The value of a number with the given exponent of ten. -/
def floatingFound (negative : Bool) (significand : Nat) (exponent : Int) : Except Fault Found :=
  match scaled significand exponent with
  | some x => .ok (signed negative x)
  | none => .error .numberRange

/-- The greatest exponent that is read: all of its 31 bits are set. -/
def maxExponent : Nat :=
  0x7FFFFFFF

/-- **The value of a number.** -/
def Numeral.found (n : Numeral) : Except Fault Found :=
  let (significand, shift, leftOut) := n.significand
  match n.exponent with
  | some (down, digits) =>
      match gather maxExponent 0 digits with
      | (e, []) => floatingFound n.negative significand (if down then shift - e else shift + e)
      | (_, _ :: _) =>
          if significand ≠ 0 && !down then .error .numberRange
          else .ok (signed n.negative 0.0)
  | none =>
      if n.fraction.isSome || leftOut then floatingFound n.negative significand shift
      else if !n.negative then .ok (.integer significand)
      else if 0 < significand && significand ≤ maxNegative then .ok (.integer (-significand))
      else .ok (signed true significand.toUInt64.toFloat)

end Json

end ClassAtlas
