import RequestBook.Expression
import RequestBook.Number.Word

/-!
# Operands

A number and perhaps a unit of time, `3d`, `90 m` or `7`. The case of a unit
counts: `M` is a month and `m` a minute. The number must fit 64 bits.
-/

namespace RequestBook

/-- A unit of time. -/
inductive TimeUnit where
  | millis
  | seconds
  | minutes
  | hours
  | days
  | weeks
  | months
  | years
  deriving DecidableEq, Repr

namespace TimeUnit

/-- All units, from the shortest on. -/
def all : List TimeUnit := [millis, seconds, minutes, hours, days, weeks, months, years]

/-- The letters of a unit. -/
def symbol : TimeUnit → Text
  | millis => ['m', 's']
  | seconds => ['s']
  | minutes => ['m']
  | hours => ['h']
  | days => ['d']
  | weeks => ['w']
  | months => ['M']
  | years => ['y']

/-- The unit with these letters. -/
def ofSymbol? (t : Text) : Option TimeUnit := all.find? fun unit => unit.symbol = t

end TimeUnit

/-- A number and perhaps a unit. -/
structure Operand where
  amount : Int
  unit : Option TimeUnit
  deriving DecidableEq, Repr

namespace Operand

/-- The operand that a text holds: digits, blanks, letters. -/
def parse (input : Text) : Except EvalError Operand :=
  let t := Text.trim input
  let digits := t.takeWhile Char.isDigit
  let letters := Text.trimStart (t.dropWhile Char.isDigit)
  let amount := Text.natOfDigits digits
  if digits.isEmpty || !letters.all Char.isAlpha || !decide (FitsWord amount) then
    .error (.badOperand t)
  else if letters.isEmpty then .ok ⟨amount, none⟩
  else
    match TimeUnit.ofSymbol? letters with
    | some unit => .ok ⟨amount, some unit⟩
    | none => .error (.unknownUnit letters)

/-- The operand in text. -/
def text (o : Operand) : Text := Text.ofInt o.amount ++ (o.unit.elim [] (·.symbol))

end Operand

/-- The operand of an operation. -/
def Operation.read (o : Operation) : Except EvalError Operand := Operand.parse o.operand

end RequestBook
