import AdmissionGuest.Number.Double
/-!
The decimal text of a double: the fewest digits that read back as the same double, and of those the
nearest. A double owns the interval of reals that round to it. From a coarse decimal grid to finer
ones, the two neighbours of the value on the grid are tried against the interval, in exact
arithmetic; seventeen digits always suffice.
-/

namespace AdmissionGuest.Binary64

/-- A decimal numeral `digits · 10^exponent`. -/
structure Decimal where
  digits : Nat
  exponent : Int
  deriving DecidableEq, Repr

/-- The number of decimal digits of a natural number; zero has one. -/
def digitCount (n : Nat) : Nat :=
  (Nat.toDigits 10 n).length

/-- The interval that rounds to a double, and the value itself, over one denominator. The ends
belong to the interval if the mantissa is even, since a tie goes there. -/
structure Interval where
  low : Nat
  value : Nat
  high : Nat
  scale : Nat
  closed : Bool

/-- Below the first double of a binade the doubles lie twice as close. The unit of the mantissa is
either a whole number or a fraction of one. -/
def interval (rank : Nat) : Interval :=
  let m := mantissa rank
  let unit := pow2 (binade rank - leastExponent)
  let scale := 4 * pow2 (leastExponent - binade rank)
  let below := if m = binadeSize ∧ 0 < binade rank then 1 else 2
  ⟨(4 * m - below) * unit, 4 * m * unit, (4 * m + 2) * unit, scale, m % 2 = 0⟩

def Interval.contains (i : Interval) (num den : Nat) : Bool :=
  let low := i.low * den
  let high := i.high * den
  let x := num * i.scale
  if i.closed then low ≤ x && x ≤ high else low < x && x < high

/-- The exponent of a power of ten at or above the leading digit of a positive quotient, by at most
two places: the number of binary digits before the point, times the logarithm of two rounded up. -/
def coarsePower (num den : Nat) : Int :=
  ((num.log2 : Int) - den.log2 + 1) * 30103 / 100000 + 1

/-- Numerator and denominator of `n · 10^power`. -/
def decimalQuotient (n : Nat) (power : Int) : Nat × Nat :=
  match power with
  | .ofNat k => (n * pow10 k, 1)
  | .negSucc k => (n, pow10 (k + 1))

def distance (a b : Nat) : Nat := (a - b) + (b - a)

/-- The better of the value's two neighbours on the grid of multiples of `10^power`, if one of them
reads back: the nearer, and of two equally near ones the even. -/
def onGrid (i : Interval) (power : Int) : Option Nat :=
  let (num, den) := decimalQuotient 1 power
  let below := i.value * den / (i.scale * num)
  let reads (n : Nat) : Bool := i.contains (n * num) den
  let off (n : Nat) : Nat := distance (n * num * i.scale) (i.value * den)
  match reads below, reads (below + 1) with
  | true, true =>
    if off below < off (below + 1) || (off below = off (below + 1) && below % 2 = 0) then
      some below
    else
      some (below + 1)
  | true, false => some below
  | false, true => some (below + 1)
  | false, false => none

/-- Tries grids of more and more digits. -/
def searchGrids (i : Interval) (power : Int) : Nat → Decimal
  | 0 => ⟨0, 0⟩
  | count + 1 =>
    match onGrid i power with
    | some n => ⟨n, power⟩
    | none => searchGrids i (power - 1) count

/-- Moves trailing zeros into the exponent. -/
def Decimal.trim : Nat → Decimal → Decimal
  | 0, d => d
  | fuel + 1, d =>
    if d.digits ≠ 0 ∧ d.digits % 10 = 0 then trim fuel ⟨d.digits / 10, d.exponent + 1⟩ else d

/-- The grids that are tried: those of seventeen digits or fewer, and those that are too coarse for
any digit. -/
def gridCount : Nat := 17 + 2

/-- The shortest decimal that reads back as the double with a positive rank. -/
def shortest (rank : Nat) : Decimal :=
  let i := interval rank
  let found := searchGrids i (coarsePower i.value i.scale) gridCount
  found.trim (digitCount found.digits)

end AdmissionGuest.Binary64
