/-!
Binary floating-point numbers of 53 significant bits, kept exactly: a finite number is a sign, a
mantissa and a power of two. Decimals are rounded to them once, half to even.
-/
namespace MarkupArena

inductive Number where
  | finite (negative : Bool) (mantissa : Nat) (exponent : Int)
  | infinite (negative : Bool)
  | nan
  deriving DecidableEq, Repr

namespace Number

/-- The power of two that is the weight of a bit. -/
def bit (place : Nat) : Nat := Nat.pow 2 place

def tenTo (place : Nat) : Nat := Nat.pow 10 place

/-- The integer nearest to a quotient; a half goes to the even neighbour. -/
def roundHalfEven (num den : Nat) : Nat :=
  let q := num / den
  let r := num % den
  if 2 * r < den then q
  else if den < 2 * r then q + 1
  else if q % 2 = 0 then q
  else q + 1

/-- A quotient divided by a power of two, as numerator and denominator. -/
def scaleDown (num den : Nat) (power : Int) : Nat × Nat :=
  if power < 0 then (num * bit power.natAbs, den) else (num, den * bit power.natAbs)

/-- The exponent of the highest bit of a positive quotient. -/
def highestBit (num den : Nat) : Int :=
  let guess : Int := (num.log2 : Int) - den.log2
  let (n, d) := scaleDown num den guess
  if d ≤ n then guess else guess - 1

def significantBits : Nat := 53
def leastExponent : Int := -1074
def greatestExponent : Int := 971

/-- The number nearest to a quotient with positive denominator. -/
def ofRatio (negative : Bool) (num den : Nat) : Number :=
  if num = 0 then finite negative 0 0
  else
    let exponent := max (highestBit num den - (significantBits - 1 : Nat)) leastExponent
    let (n, d) := scaleDown num den exponent
    let rounded := roundHalfEven n d
    let (mantissa, exponent) :=
      if rounded = bit significantBits then (bit (significantBits - 1), exponent + 1)
      else (rounded, exponent)
    if mantissa = 0 then finite negative 0 0
    else if greatestExponent < exponent then infinite negative
    else finite negative mantissa exponent

def ofNat (n : Nat) : Number := ofRatio false n 1

/-- The number nearest to `digits` times a power of ten. Beyond the range of finite numbers the
power is not computed. -/
def ofDecimal (negative : Bool) (digits : Nat) (power : Int) : Number :=
  let size : Int := (Nat.toDigits 10 digits).length + power
  if digits = 0 then finite negative 0 0
  else if 400 < size then infinite negative
  else if size < -400 then finite negative 0 0
  else if power < 0 then ofRatio negative digits (tenTo power.natAbs)
  else ofRatio negative (digits * tenTo power.natAbs) 1

/-- The greatest integer that is not above a finite number. -/
def floor? : Number → Option Int
  | finite negative mantissa exponent =>
    let m : Int := if negative then -mantissa else mantissa
    let scale : Int := bit exponent.natAbs
    some (if exponent < 0 then Int.fdiv m scale else m * scale)
  | _ => none

/-- The natural number that a number is, if it is one. -/
def nat? : Number → Option Nat
  | finite negative mantissa exponent =>
    if mantissa = 0 then some 0
    else if negative then none
    else
      let scale := bit exponent.natAbs
      if 0 ≤ exponent then some (mantissa * scale)
      else if mantissa % scale = 0 then some (mantissa / scale)
      else none
  | _ => none

/-- Whether a number is less than a natural number; never so for `nan`. -/
def ltNat (x : Number) (n : Nat) : Bool :=
  match x with
  | finite negative mantissa exponent =>
    if mantissa = 0 then 0 < n
    else negative ||
      (if exponent < 0 then mantissa < n * bit exponent.natAbs
        else mantissa * bit exponent.natAbs < n)
  | infinite negative => negative
  | nan => false

/-- Whether a number is at most a natural number; never so for `nan`. -/
def leNat (x : Number) (n : Nat) : Bool :=
  match x with
  | finite negative mantissa exponent =>
    mantissa == 0 || negative ||
      (if exponent < 0 then mantissa ≤ n * bit exponent.natAbs
        else mantissa * bit exponent.natAbs ≤ n)
  | infinite negative => negative
  | nan => false

end Number

end MarkupArena
