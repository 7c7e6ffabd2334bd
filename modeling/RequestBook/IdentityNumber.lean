import RequestBook.Calendar.Pattern
import RequestBook.Draws
import RequestBook.Expression

/-!
# Identity numbers

Eighteen characters: six digits for a region, eight for a date of birth,
three for a sequence within both, and a check character. The check character
is read off a table at the weighted sum of the other digits, modulo eleven.
-/

namespace RequestBook

/-- The parts of an identity number that its check character is made from. -/
structure IdentityNumber where
  region : Text
  birthday : Date
  sequence : Nat
  deriving DecidableEq, Repr

/-- To whom a sequence is given. -/
inductive Gender where
  | male
  | female
  deriving DecidableEq, Repr

namespace IdentityNumber

/-- The weights of the digits. -/
def weights : List Nat := [7, 9, 10, 5, 8, 4, 2, 1, 6, 3, 7, 9, 10, 5, 8, 4, 2]

/-- The check characters, by the weighted sum modulo eleven. -/
def checkCharacters : List Char := ['1', '0', 'X', '9', '8', '7', '6', '5', '4', '3', '2']

/-- How many digits a region has. -/
def regionLength : Nat := 6

/-- Sequences stay below this. -/
def sequenceLimit : Nat := 1000

/-- The first birthday that is made up. -/
def earliestBirthday : Date := ⟨1900, 1, 1⟩

/-- The digits of a code, each times its weight, added up. -/
def weightedSum : (weights : List Nat) → (code : Text) → Nat
  | weight :: weights, c :: code => Text.digitValue c * weight + weightedSum weights code
  | _, _ => 0

/-- The check character of the first seventeen characters, which must be
digits. -/
def checksum (code : Text) : Except EvalError Char :=
  let digits := code.take weights.length
  if digits.length = weights.length && digits.all Char.isDigit then
    match checkCharacters[weightedSum weights digits % 11]? with
    | some check => .ok check
    | none => .error (.badIdentityNumber code)
  else .error (.badIdentityNumber code)

/-- Whether a text ends with the check character of its first seventeen. -/
def isValid (code : Text) : Bool :=
  match checksum code with
  | .ok check => code.getLast? == some check
  | .error _ => false

/-- The identity number of a region of six digits, a date with a year of four
and a sequence of three. -/
def make (region : Text) (birthday : Date) (sequence : Nat) :
    Except EvalError IdentityNumber :=
  if region.length ≠ regionLength || !region.all Char.isDigit then
    .error (.badIdentityNumber region)
  else if sequence ≥ sequenceLimit || birthday.year < 0 || birthday.year > 9999 then
    .error (.badIdentityNumber
      (region ++ ['/'] ++ birthday.text ++ ['/'] ++ Text.ofNat sequence))
  else .ok ⟨region, birthday, sequence⟩

/-- An identity number made up from draws: any region, any date from the
earliest to today, any sequence. Before the earliest date, that date. -/
def drawn (draws : Draws) (today : Date) : IdentityNumber :=
  let region := [0, 1, 2].flatMap fun part => Text.ofNatPadded 2 (draws.below part 100)
  let span := (today.number - earliestBirthday.number).toNat
  let days := draws.below 3 (span + 1)
  { region
    birthday := (earliestBirthday.addDays? days).getD earliestBirthday
    sequence := draws.below 4 sequenceLimit }

/-- Odd sequences are given to men and even ones to women. -/
def gender (n : IdentityNumber) : Gender :=
  if n.sequence % 2 = 0 then .female else .male

/-- The number without its check character. -/
def body (n : IdentityNumber) : Text :=
  n.region ++ yearText n.birthday.year ++ Text.ofNatPadded 2 n.birthday.month
    ++ Text.ofNatPadded 2 n.birthday.day ++ Text.ofNatPadded 3 n.sequence

/-- The number in full. -/
def text (n : IdentityNumber) : Text :=
  match checksum n.body with
  | .ok check => n.body ++ [check]
  | .error _ => n.body

end IdentityNumber

end RequestBook
