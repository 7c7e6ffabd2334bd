import RequestBook.Calendar.Pattern
import RequestBook.Expression.Operand

/-!
# Values

What an expression has when it has a value: a timestamp, an integer of 64
bits, or a text. Timestamps move by spans of time, integers are reckoned
with, and nothing is done to a text. Whatever would leave its range is an
overflow, never a wrong value.
-/

namespace RequestBook

/-- The value of an expression. -/
inductive Value where
  | timestamp (t : Timestamp)
  | integer (n : Int)
  | text (t : Text)
  deriving DecidableEq, Repr

/-- The pattern of a timestamp that is written without one. -/
def defaultPattern : Text := "yyyy-MM-dd HH:mm:ss".toList

/-- A result that must be there, or else has left its range. -/
def orOverflow {α : Type} : Option α → Except EvalError α
  | some value => .ok value
  | none => .error .overflow

/-- An integer that must fit 64 bits. -/
def inWord (n : Int) : Except EvalError Int :=
  if FitsWord n then .ok n else .error .overflow

/-- Integer arithmetic. Division goes toward zero. -/
def reckon (left : Int) (operator : Operator) (right : Int) : Except EvalError Int :=
  match operator with
  | .add => inWord (left + right)
  | .sub => inWord (left - right)
  | .mul => inWord (left * right)
  | .div => if right = 0 then .error .divisionByZero else inWord (left.tdiv right)
  | .rem =>
    if right = 0 then .error .divisionByZero
    else (inWord (left.tdiv right)).map fun _ => left.tmod right

/-! ## Moving timestamps -/

/-- The span of an amount of a unit, if the unit has one length. -/
def TimeUnit.span? (amount : Int) : TimeUnit → Option Span
  | millis => Span.ofMillis? amount
  | seconds => Span.ofSeconds? amount
  | minutes => Span.ofUnits? 60 amount
  | hours => Span.ofUnits? 3600 amount
  | days => Span.ofUnits? 86400 amount
  | weeks => Span.ofUnits? 604800 amount
  | months => none
  | years => none

/-- The timestamp moved by a number of months. How many they are, whichever
way, is handed on in 32 bits without a sign. -/
def Timestamp.shiftMonths (t : Timestamp) (months : Int) : Except EvalError Timestamp :=
  if months.natAbs < 0x100000000 then orOverflow (t.addMonths? months) else .error .overflow

/-- The timestamp moved by an amount of a unit, forward for a sign of one and
back for a sign of minus one. -/
def Timestamp.shift (t : Timestamp) (sign amount : Int) (unit : TimeUnit) :
    Except EvalError Timestamp := do
  let amount ← inWord (amount * sign)
  match unit with
  | .months => t.shiftMonths amount
  | .years => t.shiftMonths (← inWord (amount * 12))
  | _ => orOverflow ((unit.span? amount).bind t.addSpan?)

namespace Value

/-- The type of the value, as errors name it. -/
def typeName : Value → Text
  | timestamp _ => "timestamp".toList
  | integer _ => "integer".toList
  | text _ => "text".toList

/-- The value after an operation. -/
def apply (v : Value) (operator : Operator) (operand : Operand) : Except EvalError Value :=
  let mismatch := EvalError.typeMismatch operator.symbol operand.text v.typeName
  match v, operand.unit with
  | timestamp t, some unit =>
    match operator with
    | .add => (t.shift 1 operand.amount unit).map timestamp
    | .sub => (t.shift (-1) operand.amount unit).map timestamp
    | _ => .error mismatch
  | integer n, none => (reckon n operator operand.amount).map integer
  | _, _ => .error mismatch

/-- The value in text. A format is heeded by timestamps only. -/
def render (v : Value) (format : Option Text) : Text :=
  match v with
  | timestamp t => t.format (format.getD defaultPattern)
  | integer n => Text.ofInt n
  | text t => t

end Value

end RequestBook
