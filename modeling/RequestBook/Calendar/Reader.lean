import RequestBook.Calendar.Timestamp
import RequestBook.Number.Word
import RequestBook.Text

/-!
# Reading a timestamp

`YYYY-MM-DDTHH:MM:SS`, where a number may have fewer digits than it has
letters and blanks may stand before it, and a year with a sign may have any
number of them. A number is checked as soon as it is read, the date as a
whole only at the end, so the first fault from the left is the one reported.
-/

namespace RequestBook

/-- Why a text is not a timestamp. -/
inductive TimestampFault where
  | outOfRange
  | invalid
  | tooShort
  | tooLong
  deriving DecidableEq, Repr

/-- The fault in words. -/
def TimestampFault.message : TimestampFault → Text
  | outOfRange => "input is out of range".toList
  | invalid => "input contains invalid characters".toList
  | tooShort => "premature end of input".toList
  | tooLong => "trailing input".toList

namespace Timestamp

/-- A number of at most `most` digits, and the text after it. -/
def readDigits (most : Nat) (t : Text) : Except TimestampFault (Nat × Text) :=
  if t.isEmpty then .error .tooShort
  else
    let digits := (t.take most).takeWhile Char.isDigit
    let n := Text.natOfDigits digits
    if digits.isEmpty then .error .invalid
    else if FitsWord n then .ok (n, t.drop digits.length)
    else .error .outOfRange

/-- The year: four digits, or a sign and as many as there are. -/
def readYear (t : Text) : Except TimestampFault (Int × Text) := do
  let (year, rest) ←
    match Text.trimStart t with
    | '-' :: rest => (readDigits rest.length rest).map fun (n, rest) => (-(Int.ofNat n), rest)
    | '+' :: rest => (readDigits rest.length rest).map fun (n, rest) => (Int.ofNat n, rest)
    | rest => (readDigits 4 rest).map fun (n, rest) => (Int.ofNat n, rest)
  if year < -0x80000000 || 0x80000000 ≤ year then .error .outOfRange else .ok (year, rest)

/-- A number of two digits between two bounds. -/
def readPart (least most : Nat) (t : Text) : Except TimestampFault (Nat × Text) := do
  let (n, rest) ← readDigits 2 (Text.trimStart t)
  if least ≤ n && n ≤ most then .ok (n, rest) else .error .outOfRange

/-- The text after a character that must come next. -/
def readMark (mark : Char) : Text → Except TimestampFault Text
  | [] => .error .tooShort
  | c :: rest => if c = mark then .ok rest else .error .invalid

/-- The timestamp that a text holds. A sixtieth second is a leap second. -/
def read (t : Text) : Except TimestampFault Timestamp := do
  let (year, rest) ← readYear t
  let (month, rest) ← readPart 1 12 (← readMark '-' rest)
  let (day, rest) ← readPart 1 31 (← readMark '-' rest)
  let (hour, rest) ← readPart 0 23 (← readMark 'T' rest)
  let (minute, rest) ← readPart 0 59 (← readMark ':' rest)
  let (second, rest) ← readPart 0 60 (← readMark ':' rest)
  if !rest.isEmpty then .error .tooLong
  else
    match Date.of? year month day with
    | none => .error .outOfRange
    | some date =>
      if second = 60 then .ok { date, hour, minute, second := 59, nano := nanosPerSecond }
      else .ok { date, hour, minute, second }

end Timestamp

end RequestBook
