import RequestBook.Calendar.Pattern

/-!
# Moments of TOML

A date, a time of day, or both, and then perhaps the distance from Greenwich
as well. However a moment was written it has one text: a `T` between date and
time, no zeros at the end of a second's fraction, and a distance of no
minutes counted to the east.
-/

namespace RequestBook

namespace Toml

/-- A time of day. The sixtieth second is there for leap seconds. -/
structure Clock where
  hour : Nat
  minute : Nat
  second : Nat
  nano : Nat
  deriving DecidableEq, Repr

/-- What a time of day is told by: Greenwich itself, or a distance from it in
minutes, to the east if it is positive. -/
inductive Zone where
  | greenwich
  | east (minutes : Int)
  deriving DecidableEq, Repr

/-- A date, a time of day, or both. -/
inductive Moment where
  | date (date : Date)
  | clock (clock : Clock)
  | full (date : Date) (clock : Clock) (zone : Option Zone)
  deriving DecidableEq, Repr

/-- A fraction of a second after its point, if there is any. -/
def fractionText (nano : Nat) : Text :=
  if nano = 0 then []
  else '.' :: ((Text.ofNatPadded 9 nano).reverse.dropWhile (· = '0')).reverse

/-- Hours and minutes with a colon. -/
def hourText (hour minute : Nat) : Text :=
  Text.ofNatPadded 2 hour ++ [':'] ++ Text.ofNatPadded 2 minute

/-- The text of a time of day. -/
def Clock.text (c : Clock) : Text :=
  hourText c.hour c.minute ++ [':'] ++ Text.ofNatPadded 2 c.second ++ fractionText c.nano

/-- The text of a zone. -/
def Zone.text : Zone → Text
  | greenwich => ['Z']
  | east minutes =>
    (if minutes < 0 then '-' else '+') :: hourText (minutes.natAbs / 60) (minutes.natAbs % 60)

/-- The text of a moment. -/
def Moment.text : Moment → Text
  | date d => d.text
  | clock c => c.text
  | full d c zone => d.text ++ ['T'] ++ c.text ++ zone.elim [] Zone.text

end Toml

end RequestBook
