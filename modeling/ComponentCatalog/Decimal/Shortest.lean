/-!
# Shortest decimals

A binary floating-point number is read back from any decimal that is nearer to it
than to its neighbours. `shortest` yields the fewest digits that do, and of several
decimals of that length the nearest.

A number is given as `m · 2 ^ q`. The decimals that read back as it form an interval
around it, whose ends lie half way to the neighbours and belong to it when `m` is
even. For 1, 2, … 17 digits the two neighbours of the number on the grid of such
decimals are tried, in whole numbers throughout.
-/

namespace ComponentCatalog.Decimal

/-- A finite positive number `m · 2 ^ q`. -/
structure Binary where
  m : Nat
  q : Int
  /-- Whether the next smaller number is only half as far away as the next larger
  one. -/
  atPowerOfTwo : Bool
  deriving DecidableEq, Repr

/-- The decimal `digits · 10 ^ exponent`. -/
structure Digits where
  digits : Nat
  exponent : Int
  deriving DecidableEq, Repr

/-- A number and the ends of its interval, as fractions with one denominator. -/
structure Interval where
  value : Nat
  low : Nat
  high : Nat
  denominator : Nat
  closed : Bool

/-- The decimals that read back as a number. -/
def Binary.interval (b : Binary) : Interval :=
  let scale := if b.q ≥ 2 then Nat.pow 2 (b.q - 2).toNat else 1
  { value := 4 * b.m * scale
    low := (4 * b.m - if b.atPowerOfTwo then 1 else 2) * scale
    high := (4 * b.m + 2) * scale
    denominator := if b.q ≥ 2 then 1 else Nat.pow 2 (2 - b.q).toNat
    closed := b.m % 2 == 0 }

/-- The power of ten, counted down from `-1`, at which a fraction below one starts. -/
def leadBelowOne (num den : Nat) : (limit : Nat) → Int → Int
  | 0, e => e
  | limit + 1, e => if num * 10 ≥ den then e else leadBelowOne (num * 10) den limit (e - 1)

/-- The power of ten at which a positive fraction starts. -/
def leadingExponent (num den : Nat) : Int :=
  if num ≥ den then (Nat.toDigits 10 (num / den)).length - 1
  else leadBelowOne num den 400 (-1)

/-- Whether a decimal of a grid lies in the interval; the grid is given by what the
fractions and their denominator are multiplied with. -/
def Interval.holds (i : Interval) (up down c : Nat) : Bool :=
  let x := c * i.denominator * down
  if i.closed then i.low * up ≤ x && x ≤ i.high * up else i.low * up < x && x < i.high * up

/-- The decimal with a given last place that reads back, if there is one. -/
def Interval.onGrid? (i : Interval) (e : Int) : Option Digits :=
  let up := if e < 0 then Nat.pow 10 (-e).toNat else 1
  let down := if e < 0 then 1 else Nat.pow 10 e.toNat
  let step := i.denominator * down
  let c := i.value * up / step
  let rest := i.value * up % step
  let nearerBelow := 2 * rest < step || (2 * rest == step && c % 2 == 0)
  match i.holds up down c, i.holds up down (c + 1) with
  | true, true => some ⟨if nearerBelow then c else c + 1, e⟩
  | true, false => some ⟨c, e⟩
  | false, true => some ⟨c + 1, e⟩
  | false, false => none

/-- The first of several grids that has a decimal which reads back. -/
def Interval.firstGrid (i : Interval) (lead : Int) : (limit : Nat) → (count : Nat) → Digits
  | 0, _ => ⟨i.value / i.denominator, 0⟩
  | limit + 1, count =>
    match i.onGrid? (lead - count) with
    | some d => d
    | none => i.firstGrid lead limit (count + 1)

/-- A decimal without zeros at its end. -/
def trimZeros : (limit : Nat) → Digits → Digits
  | 0, d => d
  | limit + 1, d =>
    if d.digits % 10 == 0 && d.digits != 0 then trimZeros limit ⟨d.digits / 10, d.exponent + 1⟩
    else d

/-- The fewest digits that read back as a number. -/
def shortest (b : Binary) : Digits :=
  let i := b.interval
  trimZeros 20 (i.firstGrid (leadingExponent i.value i.denominator) 17 0)

/-- The parts of a double-precision number: its sign, the bits of its exponent and
those of its fraction. -/
def bits (x : Float) : Bool × Nat × Nat :=
  let n := x.toBits.toNat
  (n ≥ Nat.pow 2 63, n / Nat.pow 2 52 % Nat.pow 2 11, n % Nat.pow 2 52)

/-- A finite number that is not zero, without its sign. -/
def ofBits (exponent fraction : Nat) : Binary :=
  if exponent == 0 then ⟨fraction, -1074, false⟩
  else ⟨Nat.pow 2 52 + fraction, (exponent : Int) - 1075, fraction == 0 && exponent > 1⟩

/-- The whole number that a floating-point number is, if it is one. -/
def whole? (x : Float) : Option Int :=
  let (negative, exponent, fraction) := bits x
  let sign : Int := if negative then -1 else 1
  if exponent == 0 && fraction == 0 then some 0
  else if exponent == 2047 then none
  else
    let b := ofBits exponent fraction
    if b.q ≥ 0 then some (sign * (b.m * Nat.pow 2 b.q.toNat : Nat))
    else
      let step := Nat.pow 2 (-b.q).toNat
      if b.m % step == 0 then some (sign * (b.m / step : Nat)) else none

/-- The floating-point number nearest to `digits · 10 ^ exponent`. Exponents that are
out of reach are settled without the power. -/
def nearest (digits : Nat) (exponent : Int) : Float :=
  let size : Int := (Nat.toDigits 10 digits).length + exponent
  if digits == 0 || size < -400 then 0.0
  else if size > 400 then 1.0 / 0.0
  else if exponent < 0 then Float.ofScientific digits true (-exponent).toNat
  else Float.ofScientific digits false exponent.toNat

end ComponentCatalog.Decimal
