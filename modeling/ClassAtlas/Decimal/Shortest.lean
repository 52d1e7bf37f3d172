/-!
# The shortest decimal that reads back

A binary fraction stands for every real number that rounds to it. Of the decimals in that
interval the shortest is shown: the one on the **coarsest decimal grid** that has a point in
the interval, and of two such points on one grid the nearer, an exact tie going to the even
one. `ClassAtlas.Decimal.shortest` walks down the grids and tests on each the two neighbours
of the value, all in exact arithmetic on natural numbers.
-/

namespace ClassAtlas

namespace Decimal

/-- A positive binary fraction `significand · 2 ^ exponent` of a format whose neighbours lie
one unit apart, except that below a power of two they may lie half a unit apart. -/
structure BinaryFraction where
  /-- The integral significand. -/
  significand : Nat
  /-- The exponent of two. -/
  exponent : Int
  /-- The next smaller fraction is only half a unit away. -/
  halvedBelow : Bool

/-- A positive decimal fraction `digits · 10 ^ exponent`. -/
structure DecimalFraction where
  /-- The integral significand. -/
  digits : Nat
  /-- The exponent of ten. -/
  exponent : Int

/-- A value and the ends of its rounding interval, as numerators over one denominator in which
a step of the decimal grid is `step`. -/
structure Interval where
  /-- The lower end. -/
  low : Nat
  /-- The value itself. -/
  value : Nat
  /-- The upper end. -/
  high : Nat
  /-- The ends belong to the interval. -/
  closed : Bool
  /-- The distance of two points of the grid. -/
  step : Nat

/-- A power with an integral exponent as numerator and denominator. -/
def powerRatio (base : Nat) (exponent : Int) : Nat × Nat :=
  (base.pow exponent.toNat, base.pow (-exponent).toNat)

/-- The rounding interval of a fraction, measured on the grid of the multiples of
`10 ^ grid`. Quarters of the last binary unit make the ends integral. -/
def BinaryFraction.interval (x : BinaryFraction) (grid : Int) : Interval :=
  let two := powerRatio 2 (x.exponent - 2)
  let ten := powerRatio 10 grid
  let scale := fun quarters => quarters * two.1 * ten.2
  { low := scale (4 * x.significand - (if x.halvedBelow then 1 else 2))
    value := scale (4 * x.significand)
    high := scale (4 * x.significand + 2)
    closed := x.significand % 2 == 0
    step := two.2 * ten.1 }

/-- The `n`-th point of the grid lies in the interval. -/
def Interval.has (i : Interval) (n : Nat) : Bool :=
  if i.closed then i.low ≤ n * i.step && n * i.step ≤ i.high
  else i.low < n * i.step && n * i.step < i.high

/-- **The point of the grid that stands for the value**, if the interval holds one: the nearer
neighbour of the value, and the even one of two equally near. -/
def Interval.nearest (i : Interval) : Option Nat :=
  let below := i.value / i.step
  let above := below + 1
  match i.has below, i.has above with
  | true, true =>
      let toBelow := i.value - below * i.step
      let toAbove := above * i.step - i.value
      some <|
        if toBelow < toAbove then below
        else if toAbove < toBelow then above
        else if below % 2 == 0 then below else above
  | true, false => some below
  | false, true => some above
  | false, false => none

/-- Walks from the grid `10 ^ grid` through so many finer ones to the first that has a point
in the rounding interval. -/
def descend (x : BinaryFraction) (grid : Int) : Nat → DecimalFraction
  | 0 => ⟨0, grid⟩
  | steps + 1 =>
      match (x.interval grid).nearest with
      | some n => ⟨n, grid⟩
      | none => descend x (grid - 1) steps

/-- **The shortest decimal** that reads back as the fraction. The walk starts above every
fraction of the format with 64 bits and ends below its least unit. -/
def shortest (x : BinaryFraction) : DecimalFraction :=
  descend x 309 1100

end Decimal

end ClassAtlas
