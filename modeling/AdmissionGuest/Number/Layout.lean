import AdmissionGuest.Number.Shortest
/-!
How a double is laid out as text: in positional notation with at least one decimal from `0.00001` up
to, and without, `1e+16`; with an exponent that always has a sign elsewhere.
-/

namespace AdmissionGuest

/-- Where positional notation begins and ends, as exponents of the leading digit. -/
structure Layout where
  leastPositional : Int
  firstExponential : Int

/-- The layout of every double in a document or in an error message. -/
def documentLayout : Layout := ⟨-5, 16⟩

namespace Binary64

/-- A sign that is always written, and the digits of the absolute value. -/
def signedDigits (n : Int) : List Char :=
  (if n < 0 then '-' else '+') :: Nat.toDigits 10 n.natAbs

def Decimal.text (layout : Layout) (d : Decimal) : List Char :=
  let digits := Nat.toDigits 10 d.digits
  let leading : Int := digits.length - 1 + d.exponent
  if leading < layout.leastPositional ∨ layout.firstExponential ≤ leading then
    match digits with
    | [first] => first :: 'e' :: signedDigits leading
    | first :: rest => first :: '.' :: rest ++ 'e' :: signedDigits leading
    | [] => []
  else if 0 ≤ d.exponent then
    digits ++ List.replicate d.exponent.toNat '0' ++ ['.', '0']
  else if leading < 0 then
    ['0', '.'] ++ List.replicate (-leading - 1).toNat '0' ++ digits
  else
    let whole := (leading + 1).toNat
    digits.take whole ++ '.' :: digits.drop whole

end Binary64

def Double.text (d : Double) : List Char :=
  let magnitude :=
    if d.rank = 0 then ['0', '.', '0']
    else (Binary64.shortest d.rank).text documentLayout
  if d.negative then '-' :: magnitude else magnitude

end AdmissionGuest
