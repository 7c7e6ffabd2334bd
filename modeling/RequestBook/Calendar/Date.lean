import RequestBook.Number.Word

/-!
# Dates

Dates of the Gregorian calendar, carried back before its introduction, with
a year zero. A date has a number, the days since the first day of year zero,
and days are added to numbers. The way back from a number guesses the year
by the mean length of a year, which is wrong by one at most.

Years run from -262143 to 262142; a date outside that range is not a date
here.
-/

namespace RequestBook

/-- A date by year, month and day. -/
structure Date where
  year : Int
  month : Nat
  day : Nat
  deriving DecidableEq, Repr

/-- The first year of the calendar. -/
def firstYear : Int := -262143

/-- The last year of the calendar. -/
def lastYear : Int := 262142

/-- Whether a year has a 29th of February. -/
def isLeapYear (year : Int) : Bool :=
  year % 4 == 0 && (year % 100 != 0 || year % 400 == 0)

/-- How many days a month has. -/
def monthLength (year : Int) (month : Nat) : Nat :=
  match month with
  | 2 => if isLeapYear year then 29 else 28
  | 4 | 6 | 9 | 11 => 30
  | _ => 31

/-- How many days of a year lie before a month. -/
def daysBeforeMonth (year : Int) : Nat → Nat
  | 0 => 0
  | 1 => 0
  | month + 2 => daysBeforeMonth year (month + 1) + monthLength year (month + 1)

/-- The number of the first day of a year. -/
def yearStart (year : Int) : Int :=
  365 * year + (year + 3) / 4 - (year + 99) / 100 + (year + 399) / 400

/-- The year that a day number falls into. -/
def yearOfDay (day : Int) : Int :=
  let guess := 400 * day / 146097
  if day < yearStart guess then guess - 1
  else if yearStart (guess + 1) ≤ day then guess + 1
  else guess

/-- The month that a day of a year falls into, counted from zero. -/
def monthOfDay (year : Int) (day : Nat) : Nat :=
  ((List.range' 1 12).reverse.find? fun month => daysBeforeMonth year month ≤ day).getD 1

namespace Date

/-- Whether there is such a date. -/
def IsValid (d : Date) : Prop :=
  firstYear ≤ d.year ∧ d.year ≤ lastYear ∧ 1 ≤ d.month ∧ d.month ≤ 12 ∧
    1 ≤ d.day ∧ d.day ≤ monthLength d.year d.month

instance (d : Date) : Decidable d.IsValid := by unfold IsValid; infer_instance

/-- The date of a year, month and day, if there is one. -/
def of? (year : Int) (month day : Nat) : Option Date :=
  let d : Date := ⟨year, month, day⟩
  if d.IsValid then some d else none

/-- The number of the date. -/
def number (d : Date) : Int :=
  yearStart d.year + daysBeforeMonth d.year d.month + d.day - 1

/-- The date with a number, in whatever year that is. -/
def ofNumber (n : Int) : Date :=
  let year := yearOfDay n
  let day := (n - yearStart year).toNat
  let month := monthOfDay year day
  ⟨year, month, day - daysBeforeMonth year month + 1⟩

/-- The date with a number, within the calendar. -/
def ofNumber? (n : Int) : Option Date :=
  let d := ofNumber n
  if firstYear ≤ d.year ∧ d.year ≤ lastYear then some d else none

/-- The date some days later. -/
def addDays? (d : Date) (days : Int) : Option Date := ofNumber? (d.number + days)

/-- The months from the first month of year zero to that of the date. -/
def monthCount (d : Date) : Int := 12 * d.year + (Int.ofNat d.month - 1)

/-- The date some months later, on the last day of the month if that is too
short. How many months are added, and to which count they lead, has to fit 32
bits. -/
def addMonths? (d : Date) (months : Int) : Option Date :=
  let count := d.monthCount + months
  if months.natAbs < 0x80000000 ∧ FitsHalfWord count then
    let year := count / 12
    let month := (count % 12).toNat + 1
    of? year month (min d.day (monthLength year month))
  else none

/-- The day of the week, Sunday being zero. -/
def weekday (d : Date) : Nat := ((d.number + 6) % 7).toNat

/-- The day of the year, counted from one. -/
def dayOfYear (d : Date) : Nat := daysBeforeMonth d.year d.month + d.day

end Date

end RequestBook
