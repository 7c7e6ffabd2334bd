import RequestBook.IdentityNumber
import RequestBook.UniqueId
import RequestBook.Value

/-!
# Evaluators

An evaluator answers the expressions under one tag. It is given the
expression, the present moment and a source of draws, and nothing it does
outlasts the answer. Three are built in: moments of the calendar and what
can be read off them, identity numbers, and unique identifiers.
-/

namespace RequestBook

/-- A way to find the value of an expression. -/
abbrev Evaluator := Expression → Timestamp → Draws → Except EvalError Value

namespace Evaluator

/-! ## Moments -/

/-- The moment that a word names. All but the present one are midnights. -/
def moment (word : Text) (now : Timestamp) : Except EvalError Timestamp :=
  let midnight (days : Int) := (orOverflow (now.date.addDays? days)).map Timestamp.midnight
  let name := Text.lower word
  if name = "now".toList then .ok now
  else if name = "today".toList then midnight 0
  else if name = "yesterday".toList then midnight (-1)
  else if name = "tomorrow".toList then midnight 1
  else .error (.unknownSegment word)

/-- The number that a word reads off a date. -/
def reading (word : Text) (date : Date) : Except EvalError Int :=
  let name := Text.lower word
  if name = "year".toList then .ok date.year
  else if name = "month".toList then .ok date.month
  else if name = "day".toList || name = "month-day".toList then .ok date.day
  else if name = "year-day".toList then .ok date.dayOfYear
  else if name = "week-day".toList then .ok date.weekday
  else .error (.unknownSegment word)

/-- `$date_time.moment` and `$date_time.moment.reading`. -/
def dateTime : Evaluator := fun e now _ =>
  match e.arguments with
  | [word] => (moment word now).map .timestamp
  | [word, what] => do
    let t ← moment word now
    (reading what t.date).map .integer
  | _ => .error (.segmentCount e.segments.length)

/-! ## Made-up values -/

/-- `$id_card`, whatever follows. -/
def idCard : Evaluator := fun _ now draws =>
  .ok (.text (IdentityNumber.drawn draws now.date).text)

/-- `$uuid`, whatever follows. -/
def uuid : Evaluator := fun _ _ draws => .ok (.text (UniqueId.text (draws [0])))

/-- The evaluators that are built in, by tag. -/
def standard : List (Text × Evaluator) := [
  ("$date_time".toList, dateTime),
  ("$id_card".toList, idCard),
  ("$uuid".toList, uuid)]

end Evaluator

end RequestBook
