import MarkupArena.Number.Shortest
/-!
How a number is written: its shortest digits, positionally while the decimal point stays within
21 places to the right and six to the left of the first digit, and with an exponent beyond.
-/
namespace MarkupArena.Number

/-- Where positional notation ends: the least and greatest position of the decimal point, counted
from the first digit. -/
structure Layout where
  leastPoint : Int
  greatestPoint : Int
  deriving DecidableEq, Repr

def layout : Layout := ⟨-5, 21⟩

def zeros (n : Nat) : List Char := List.replicate n '0'

def exponentText (power : Int) : List Char :=
  (if power < 0 then '-' else '+') :: Nat.toDigits 10 power.natAbs

/-- Writes a positive decimal. -/
def writeDecimal (l : Layout) (x : Decimal) : List Char :=
  let digits := Nat.toDigits 10 x.digits
  let point : Int := digits.length + x.power
  if point < l.leastPoint ∨ l.greatestPoint < point then
    let mantissa := match digits with
      | [] => []
      | [d] => [d]
      | d :: more => d :: '.' :: more
    mantissa ++ 'e' :: exponentText (point - 1)
  else if point ≤ 0 then '0' :: '.' :: zeros point.natAbs ++ digits
  else if 0 ≤ x.power then digits ++ zeros x.power.natAbs
  else digits.take point.natAbs ++ '.' :: digits.drop point.natAbs

/-- The text of a number. Both zeros are written alike. -/
def text : Number → String
  | nan => "NaN"
  | infinite false => "Infinity"
  | infinite true => "-Infinity"
  | finite negative mantissa exponent =>
    if mantissa = 0 then "0"
    else
      let body := writeDecimal layout (shortest mantissa exponent)
      String.ofList (if negative then '-' :: body else body)

end MarkupArena.Number
