import RequestBook.Number.Binary64
import RequestBook.Text

/-!
# The fewest digits that read back

A number stands for every real that rounds to it. Of the decimals among
those, the one with the fewest digits is written, and of two with equally
many the nearer. Only two decimals of each length can qualify, the
neighbours of the number itself on that grid, so lengths are tried from one
digit up. Seventeen digits always do.

Two ways of writing are made from these digits: one with an exponent for
very large and very small numbers, and one that never uses an exponent.
-/

namespace RequestBook

/-- Decimal digits, as one number, times a power of ten. -/
structure Decimal where
  digits : Nat
  power : Int
  deriving DecidableEq, Repr

/-- What happens to a number halfway between two equally short decimals. -/
inductive HalfRule where
  | toEven
  | up
  deriving DecidableEq, Repr

namespace Binary64

/-- The decimal places of the leading digit of `mantissa * 2 ^ exponent`,
which is positive: zero for units, and negative behind the point. -/
def leadingPlace (mantissa : Nat) (exponent : Int) : Int :=
  let (num, den) := scaled mantissa 1 exponent
  if den ≤ num then Int.ofNat ((Nat.toDigits 10 (num / den)).length - 1)
  else
    match (List.range 400).find? fun places => den ≤ num * Nat.pow 10 places with
    | some places => -(Int.ofNat places)
    | none => -400

/-- The decimal with `count` digits that reads back as the number, if there
is one; the nearer of two. -/
def decimalOfLength? (rule : HalfRule) (mantissa : Nat) (exponent leading : Int)
    (count : Nat) : Option Decimal :=
  let power := leading - Int.ofNat count + 1
  -- In quarters of the last binary place: the number and the ends of what
  -- rounds to it. Below a power of two the next number is twice as near.
  let value := 4 * mantissa
  let high := value + 2
  let low := value - (if mantissa = leastNormal && exponent > minExponent then 1 else 2)
  -- One decimal unit is `unit / scale` such quarters.
  let (scale, unit) := scaled 1 1 (exponent - 2)
  let unit := if power ≥ 0 then unit * Nat.pow 10 power.toNat else unit
  let scale := if power ≥ 0 then scale else scale * Nat.pow 10 (-power).toNat
  let readsBack (digits : Nat) : Bool :=
    if mantissa % 2 = 0 then low * scale ≤ digits * unit && digits * unit ≤ high * scale
    else low * scale < digits * unit && digits * unit < high * scale
  let below := value * scale / unit
  let rest := value * scale % unit
  let lowerNearer :=
    2 * rest < unit || (2 * rest = unit && rule = .toEven && below % 2 = 0)
  match readsBack below, readsBack (below + 1) with
  | true, true => some ⟨if lowerNearer then below else below + 1, power⟩
  | true, false => some ⟨below, power⟩
  | false, true => some ⟨below + 1, power⟩
  | false, false => none

/-- A decimal without zeros at its end. At most `fuel` are taken off. -/
def withoutZeros : Nat → Decimal → Decimal
  | 0, d => d
  | fuel + 1, d =>
    if d.digits ≠ 0 && d.digits % 10 = 0 then
      withoutZeros fuel ⟨d.digits / 10, d.power + 1⟩
    else d

/-- The shortest decimal that reads back as `mantissa * 2 ^ exponent`. -/
def shortest (rule : HalfRule) (mantissa : Nat) (exponent : Int) : Decimal :=
  if mantissa = 0 then ⟨0, 0⟩
  else
    let leading := leadingPlace mantissa exponent
    match (List.range' 1 17).findSome?
        (decimalOfLength? rule mantissa exponent leading) with
    | some d => withoutZeros 20 d
    | none => ⟨0, 0⟩

end Binary64

namespace Decimal

/-- The place of the leading digit: zero for units. -/
def leading (d : Decimal) : Int :=
  d.power + Int.ofNat (Nat.toDigits 10 d.digits).length - 1

/-- The digits with the point where it belongs, and no point after units. -/
def positional (d : Decimal) : Text :=
  let digits := Text.ofNat d.digits
  if d.power ≥ 0 then digits ++ List.replicate d.power.toNat '0'
  else
    let places := (-d.power).toNat
    if places < digits.length then
      digits.take (digits.length - places) ++ ['.']
        ++ digits.drop (digits.length - places)
    else ['0', '.'] ++ List.replicate (places - digits.length) '0' ++ digits

/-- One digit, the point, the rest, and the power of ten with its sign. -/
def scientific (d : Decimal) : Text :=
  let leading := d.leading
  let sign := if leading < 0 then '-' else '+'
  let power := ['e', sign] ++ Text.ofNat leading.natAbs
  match Text.ofNat d.digits with
  | [] => power
  | [digit] => digit :: power
  | digit :: rest => digit :: '.' :: rest ++ power

end Decimal

namespace Binary64

/-- The sign that stands before a number's digits. -/
def signText (negative : Bool) : Text := if negative then ['-'] else []

/-- The number as JSON writes it: with a point or an exponent always, and
with an exponent from ten to the sixteenth up and below a hundred thousandth.
JSON has no other numbers than finite ones. -/
def jsonText : Binary64 → Text
  | finite negative mantissa exponent =>
    let d := shortest .toEven mantissa exponent
    let body :=
      if -5 ≤ d.leading && d.leading ≤ 15 then
        if d.power ≥ 0 then d.positional ++ ['.', '0'] else d.positional
      else d.scientific
    signText negative ++ body
  | _ => "null".toList

/-- The number written out without an exponent, and without a point when it
is whole. -/
def plainText : Binary64 → Text
  | finite negative mantissa exponent =>
    signText negative ++ (shortest .up mantissa exponent).positional
  | infinite negative => signText negative ++ "inf".toList
  | nan => "NaN".toList

end Binary64

end RequestBook
