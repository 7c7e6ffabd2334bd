import RequestBook.Calendar.Date
import RequestBook.Calendar.Span

/-!
# Timestamps

A date and a time of day, with no zone. A leap second is a second 59 that
lasts for two: its nanoseconds go on past the thousand million.

A span is added to the time of day, and what does not fit the day is carried
into the date. A leap second is not on the line of instants, so a timestamp
inside one first settles beside it: at the second before when it moves on,
at the second after when it moves back. A span that does not leave the leap
second moves it within.
-/

namespace RequestBook

/-- A moment of a calendar without zones. -/
structure Timestamp where
  date : Date
  hour : Nat := 0
  minute : Nat := 0
  second : Nat := 0
  nano : Nat := 0
  deriving DecidableEq, Repr

/-- Nanoseconds of a second. -/
def nanosPerSecond : Nat := 1000000000

/-- Seconds of a day. -/
def secondsPerDay : Nat := 86400

/-- Nanoseconds of a day. -/
def nanosPerDay : Nat := secondsPerDay * nanosPerSecond

namespace Timestamp

/-- Whether there is such a moment. -/
def IsValid (t : Timestamp) : Prop :=
  t.date.IsValid ∧ t.hour < 24 ∧ t.minute < 60 ∧ t.second < 60 ∧
    (t.nano < nanosPerSecond ∨ (t.second = 59 ∧ t.nano < 2 * nanosPerSecond))

instance (t : Timestamp) : Decidable t.IsValid := by unfold IsValid; infer_instance

/-- The second of the day. -/
def secondOfDay (t : Timestamp) : Nat := 3600 * t.hour + 60 * t.minute + t.second

/-- The nanoseconds since the first moment of year zero. -/
def instant (t : Timestamp) : Int :=
  t.date.number * nanosPerDay + t.secondOfDay * nanosPerSecond + t.nano

/-- Whether the moment lies in a leap second. -/
def inLeapSecond (t : Timestamp) : Bool := nanosPerSecond ≤ t.nano

/-- The moment some seconds and nanoseconds after the first of a date. Seconds
and whole days are carried. -/
def carried? (date : Date) (second nano : Int) : Option Timestamp :=
  let second := second + nano / nanosPerSecond
  (date.addDays? (second / secondsPerDay)).map fun date =>
    let rest := (second % secondsPerDay).toNat
    { date
      hour := rest / 3600
      minute := rest / 60 % 60
      second := rest % 60
      nano := (nano % nanosPerSecond).toNat }

/-- The moment a span later. -/
def addSpan? (t : Timestamp) (span : Span) : Option Timestamp :=
  let second := Int.ofNat t.secondOfDay + span.seconds
  let nano := Int.ofNat t.nano + span.nanos
  if !t.inLeapSecond || span.seconds < 0 then carried? t.date second nano
  else if 0 < span.seconds || 2 * Int.ofNat nanosPerSecond ≤ nano then
    carried? t.date second (nano - nanosPerSecond)
  else some { t with nano := nano.toNat }

/-- The same time of day some months later. -/
def addMonths? (t : Timestamp) (months : Int) : Option Timestamp :=
  (t.date.addMonths? months).map fun date => { t with date }

/-- The first moment of a date. -/
def midnight (date : Date) : Timestamp := { date }

end Timestamp

end RequestBook
