import MarkupArena.Number.Basic
/-!
The shortest decimal that reads back as a given number. A decimal reads back when it lies between
the midpoints to the neighbouring numbers; the midpoints themselves count when the mantissa is even.
-/
namespace MarkupArena.Number

/-- A decimal `digits · 10 ^ power`. -/
structure Decimal where
  digits : Nat
  power : Int
  deriving DecidableEq, Repr

/-- Compares `a · 2 ^ p` with `d · 10 ^ q` after clearing negative powers. -/
def binaryLeDecimal (a : Nat) (p : Int) (x : Decimal) : Bool :=
  let left := if p < 0 then a else a * bit p.natAbs
  let leftDen := if p < 0 then bit p.natAbs else 1
  let right := if x.power < 0 then x.digits else x.digits * tenTo x.power.natAbs
  let rightDen := if x.power < 0 then tenTo x.power.natAbs else 1
  left * rightDen ≤ right * leftDen

def decimalLeBinary (x : Decimal) (a : Nat) (p : Int) : Bool :=
  let left := if x.power < 0 then x.digits else x.digits * tenTo x.power.natAbs
  let leftDen := if x.power < 0 then tenTo x.power.natAbs else 1
  let right := if p < 0 then a else a * bit p.natAbs
  let rightDen := if p < 0 then bit p.natAbs else 1
  left * rightDen ≤ right * leftDen

/-- Whether a decimal rounds to `mantissa · 2 ^ exponent`. Below a power of two the numbers are
twice as dense, so the lower midpoint is half as far. -/
def readsBack (mantissa : Nat) (exponent : Int) (x : Decimal) : Bool :=
  let edge := mantissa == bit (significantBits - 1) && leastExponent < exponent
  let low := if edge then 4 * mantissa - 1 else 4 * mantissa - 2
  let high := 4 * mantissa + 2
  let p := exponent - 2
  let aboveLow := binaryLeDecimal low p x
  let belowHigh := decimalLeBinary x high p
  if mantissa % 2 = 0 then aboveLow && belowHigh
  else aboveLow && belowHigh && !decimalLeBinary x low p && !binaryLeDecimal high p x

/-- The exponent of the leading decimal digit of a positive quotient. -/
def leadingPower (num den : Nat) : Int :=
  let guess : Int := (Nat.toDigits 10 num).length - (Nat.toDigits 10 den).length
  let reached :=
    if guess < 0 then den ≤ num * tenTo guess.natAbs else den * tenTo guess.natAbs ≤ num
  if reached then guess else guess - 1

/-- The better of the two grid points next to a quotient among those that read back: the nearer
one, and of two equally near the even one. -/
def onGrid? (mantissa : Nat) (exponent : Int) (num den : Nat) (power : Int) : Option Decimal :=
  let n := if power < 0 then num * tenTo power.natAbs else num
  let d := if power < 0 then den else den * tenTo power.natAbs
  let below : Decimal := ⟨n / d, power⟩
  let above : Decimal := ⟨n / d + 1, power⟩
  match readsBack mantissa exponent below, readsBack mantissa exponent above with
  | true, true => some ⟨roundHalfEven n d, power⟩
  | true, false => some below
  | false, true => some above
  | false, false => none

/-- Tries grids of increasing fineness, from one digit on. -/
def firstGrid (mantissa : Nat) (exponent : Int) (num den : Nat) (power : Int) : Nat → Decimal
  | 0 => ⟨num / den, 0⟩
  | tries + 1 =>
    match onGrid? mantissa exponent num den power with
    | some x => x
    | none => firstGrid mantissa exponent num den (power - 1) tries

/-- Drops trailing zeros; `fuel` bounds how many. -/
def dropZeros : Nat → Decimal → Decimal
  | 0, x => x
  | fuel + 1, x =>
    if x.digits ≠ 0 ∧ x.digits % 10 = 0 then dropZeros fuel ⟨x.digits / 10, x.power + 1⟩ else x

/-- The shortest decimal for a positive mantissa; seventeen digits always suffice. -/
def shortest (mantissa : Nat) (exponent : Int) : Decimal :=
  let (num, den) := scaleDown mantissa 1 (-exponent)
  dropZeros 20 (firstGrid mantissa exponent num den (leadingPower num den) 17)

end MarkupArena.Number
