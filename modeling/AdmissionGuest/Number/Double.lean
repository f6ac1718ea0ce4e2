/-!
Finite IEEE 754 doubles in exact arithmetic. A magnitude is named by its rank, its place among the
non-negative doubles in ascending order; a rank stands for `mantissa · 2^exponent`. Rounding a
quotient of natural numbers to the nearest double gives a rank, and a decimal numeral is read by
rounding its significand and then scaling it by a rounded power of ten.
-/

namespace AdmissionGuest

namespace Binary64

def pow2 (n : Nat) : Nat := Nat.pow 2 n

def pow10 (n : Nat) : Nat := Nat.pow 10 n

theorem pow10_zero : pow10 0 = 1 := rfl

theorem pow10_succ (n : Nat) : pow10 (n + 1) = 10 * pow10 n := Nat.pow_succ'

/-- How many mantissas a binade has; the least of them, apart from the first binade. -/
def binadeSize : Nat := pow2 52

def infinity : Nat := 0x7FF * binadeSize

def mantissa (rank : Nat) : Nat :=
  if rank < binadeSize then rank else rank % binadeSize + binadeSize

/-- How many powers of two the least double is to be multiplied by to get the unit of the
mantissa. -/
def binade (rank : Nat) : Nat :=
  rank / binadeSize - 1

/-- The unit of the least double is `2^-1074`, so its negative exponent is this. -/
def leastExponent : Nat := 1074

/-- The value of a rank, as a quotient of natural numbers. -/
def numerator (rank : Nat) : Nat :=
  mantissa rank * pow2 (binade rank)

def denominator : Nat := pow2 leastExponent

/-- A quotient rounded to the nearest natural number; a half goes to the even neighbour. -/
def roundQuotient (num den : Nat) : Nat :=
  let whole := num / den
  let rest := num % den
  if den < 2 * rest || (den = 2 * rest && whole % 2 = 1) then whole + 1 else whole

/-- How many doublings of the least double the unit of the nearest double takes, for a quotient of
two positive numbers. -/
def unitOf (num den : Nat) : Nat :=
  let up := num.log2 + leastExponent
  let down := den.log2 + 52
  if num * pow2 den.log2 < den * pow2 num.log2 then up - (down + 1) else up - down

/-- The rank of the double nearest to a quotient, at least `infinity` if the quotient is too large.
A mantissa that is rounded up to `2^53` yields the first rank of the next binade. -/
def ofQuotient (num den : Nat) : Nat :=
  if num = 0 then 0
  else
    let unit := unitOf num den
    unit * binadeSize + roundQuotient (num * denominator) (den * pow2 unit)

def mul (a b : Nat) : Nat :=
  ofQuotient (numerator a * numerator b) (denominator * denominator)

def div (a b : Nat) : Nat :=
  ofQuotient (numerator a) (numerator b)

def powerOfTen (k : Nat) : Nat :=
  ofQuotient (pow10 k) 1

def greatestPower : Nat := 308

/-- Divides by the greatest power of ten a number of times. -/
def shrink : Nat → Nat → Nat
  | 0, rank => rank
  | steps + 1, rank =>
    if rank = 0 then 0 else shrink steps (div rank (powerOfTen greatestPower))

/-- A significand times a power of ten: none if that is too large. Powers below the least one that
divides in one step are taken in several, each of them rounded. -/
def ofDecimal (significand : Nat) (exponent : Int) : Option Nat :=
  let start := ofQuotient significand 1
  match exponent with
  | .ofNat k =>
    if start = 0 then some 0
    else if greatestPower < k then none
    else
      let scaled := mul start (powerOfTen k)
      if scaled < infinity then some scaled else none
  | .negSucc k =>
    let steps := k / greatestPower
    some (div (shrink steps start) (powerOfTen (k + 1 - greatestPower * steps)))

end Binary64

/-- A finite double: its sign and the rank of its magnitude. -/
structure Double where
  negative : Bool
  rank : Nat
  deriving DecidableEq, Repr

end AdmissionGuest
