/-!
# Binary floating point, exactly

A number of 64 bits in binary floating point is a whole number of at most 53
bits times a power of two. Rounding a quotient of two natural numbers to the
nearest such number is the one inexact step there is; reading, multiplying
and dividing are all made of it, and everything is computed in whole
numbers.
-/

namespace RequestBook

/-- A number of 64 bits: sign, and mantissa times a power of two. -/
inductive Binary64 where
  | finite (negative : Bool) (mantissa : Nat) (exponent : Int)
  | infinite (negative : Bool)
  | nan
  deriving DecidableEq, Repr

namespace Binary64

/-- The least exponent a number can have. -/
def minExponent : Int := -1074

/-- The greatest one. -/
def maxExponent : Int := 971

/-- The least mantissa that takes all 53 bits. -/
def leastNormal : Nat := 0x10000000000000

/-- The natural number nearest to a quotient; a half goes to the even one. -/
def roundQuotient (num den : Nat) : Nat :=
  let floor := num / den
  let rest := num % den
  if 2 * rest > den || (2 * rest = den && floor % 2 = 1) then floor + 1 else floor

/-- A quotient times a power of two, as a quotient. -/
def scaled (num den : Nat) (power : Int) : Nat × Nat :=
  if power ≥ 0 then (num <<< power.toNat, den) else (num, den <<< (-power).toNat)

/-- Where the leading bit of a positive quotient stands. -/
def leadingBit (num den : Nat) : Int :=
  let guess : Int := Int.ofNat num.log2 - Int.ofNat den.log2
  let (n, d) := scaled num den (-guess)
  if d ≤ n then guess else guess - 1

/-- The number nearest to a quotient. -/
def ofQuotient (negative : Bool) (num den : Nat) : Binary64 :=
  if num = 0 then .finite negative 0 minExponent
  else
    let exponent := max (leadingBit num den - 52) minExponent
    let (n, d) := scaled num den (-exponent)
    let mantissa := roundQuotient n d
    let (mantissa, exponent) :=
      if mantissa = 2 * leastNormal then (leastNormal, exponent + 1) else (mantissa, exponent)
    if exponent > maxExponent then .infinite negative
    else .finite negative mantissa exponent

/-- The number nearest to a natural number. -/
def ofNat (n : Nat) : Binary64 := ofQuotient false n 1

/-- The number nearest to a power of ten. -/
def powerOfTen (power : Nat) : Binary64 := ofNat (Nat.pow 10 power)

/-- Whether the number is zero, of either sign. -/
def isZero : Binary64 → Bool
  | finite _ mantissa _ => mantissa == 0
  | _ => false

/-- The number with the other sign. -/
def negated : Binary64 → Binary64
  | finite negative mantissa exponent => .finite (!negative) mantissa exponent
  | infinite negative => .infinite (!negative)
  | nan => .nan

/-- The product of two numbers that are not infinite, rounded once. -/
def times : Binary64 → Binary64 → Binary64
  | finite s m p, finite t n q =>
    let (num, den) := scaled (m * n) 1 (p + q)
    ofQuotient (s != t) num den
  | _, _ => .nan

/-- The quotient of two numbers that are not infinite, by one that is not
zero, rounded once. -/
def dividedBy : Binary64 → Binary64 → Binary64
  | finite s m p, finite t n q =>
    if n = 0 then .nan
    else
      let (num, den) := scaled m n (p - q)
      ofQuotient (s != t) num den
  | _, _ => .nan

/-- The number nearest to `digits` times a power of ten. Far outside the
range of all numbers the power is not computed. -/
def ofDecimal (negative : Bool) (digits : Nat) (power : Int) : Binary64 :=
  let size := power + Int.ofNat (Nat.toDigits 10 digits).length
  if digits = 0 || size < -400 then .finite negative 0 minExponent
  else if size > 400 then .infinite negative
  else if power ≥ 0 then ofQuotient negative (digits * Nat.pow 10 power.toNat) 1
  else ofQuotient negative digits (Nat.pow 10 (-power).toNat)

end Binary64

end RequestBook
