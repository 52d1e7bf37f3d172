import ClassAtlas.Decimal.Shortest
/-!
# How a fraction is written

A fraction in a message is written with the digits of `ClassAtlas.Decimal.shortest` and always
with a decimal point or an exponent. The decisions are one record,
`ClassAtlas.Decimal.messageStyle`: the point is placed among the digits as long as the first
digit stands between the fifth place after the point and the sixteenth before it, and beyond
that an exponent with a sign and at least two digits follows.
-/

namespace ClassAtlas

namespace Decimal

/-- Where positional writing ends and how an exponent looks. -/
structure Style where
  /-- The least exponent of the first digit that is written without an exponent. -/
  lowestPositional : Int
  /-- The greatest exponent of the first digit that is written without an exponent. -/
  highestPositional : Int
  /-- An exponent has at least so many digits. -/
  exponentDigits : Nat

/-- **The style of messages**: `0.00001` and `1000000000000000.0` are written out, and
`1e+16` and `1e-06` are not. -/
def messageStyle : Style :=
  ⟨-5, 15, 2⟩

/-- The decimal digits of a number, most significant first. -/
def digitsOf (n : Nat) : List Char :=
  Nat.toDigits 10 n

/-- A list of digits, filled up with zeros in front to so many places. -/
def padFront (places : Nat) (digits : List Char) : List Char :=
  List.replicate (places - digits.length) '0' ++ digits

/-- The point among the digits of a decimal whose first digit has the given exponent, with at
least one digit on each side. -/
def positional (digits : List Char) (exponent : Int) : List Char :=
  if exponent < 0 then
    ['0', '.'] ++ List.replicate ((-exponent).toNat - 1) '0' ++ digits
  else
    let whole := exponent.toNat + 1
    let fraction := digits.drop whole
    digits.take whole ++ List.replicate (whole - digits.length) '0' ++ ['.'] ++
      (if fraction.isEmpty then ['0'] else fraction)

/-- One digit before the point, and the exponent of that digit. -/
def scientific (style : Style) (digits : List Char) (exponent : Int) : List Char :=
  digits.take 1 ++ (if digits.length ≤ 1 then [] else '.' :: digits.drop 1) ++
    ['e', if exponent < 0 then '-' else '+'] ++
    padFront style.exponentDigits (digitsOf exponent.natAbs)

/-- A decimal in the given style. Zeros at the end of its digits carry nothing and go. -/
def DecimalFraction.write (style : Style) (d : DecimalFraction) : List Char :=
  let digits := digitsOf d.digits
  let exponent := d.exponent + (digits.length - 1 : Int)
  let kept := (digits.reverse.dropWhile (· == '0')).reverse
  if style.lowestPositional ≤ exponent ∧ exponent ≤ style.highestPositional then
    positional kept exponent
  else
    scientific style kept exponent

/-- The place value of the exponent in the format with 64 bits, above the 52 bits of the
fraction. -/
def exponentPlace : Nat :=
  0x10000000000000

/-- The place value of the sign in the format with 64 bits, above the 11 bits of the exponent. -/
def signPlace : Nat :=
  0x8000000000000000

/-- The magnitude of a finite number of the format with 64 bits, or `none` for zero. -/
def BinaryFraction.ofBits (bits : UInt64) : Option BinaryFraction :=
  let fraction : Nat := bits.toNat % exponentPlace
  let field : Nat := bits.toNat % signPlace / exponentPlace
  if field == 0 then
    if fraction == 0 then none else some ⟨fraction, -1074, false⟩
  else
    some ⟨exponentPlace + fraction, (field : Int) - 1075, fraction == 0 && field != 1⟩

/-- **A finite number as it is shown in a message.** The sign of a zero is kept. -/
def show64 (x : Float) : String :=
  let bits := x.toBits
  let sign := if signPlace ≤ bits.toNat then ['-'] else []
  let magnitude :=
    match BinaryFraction.ofBits bits with
    | none => ['0', '.', '0']
    | some fraction => (shortest fraction).write messageStyle
  String.ofList (sign ++ magnitude)

end Decimal

end ClassAtlas
