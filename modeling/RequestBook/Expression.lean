import RequestBook.Text.Case

/-!
# Expressions

What stands inside a placeholder: a path of segments, perhaps an operation
on its value, perhaps a format for it.

    path  [ operator operand ]  [ => format ]

The first `=>` parts the format off. In what is left, the first plus or
minus with a digit after it, blanks between them not counted, begins the
operation; a hyphen inside a word is followed by a letter and begins
nothing. The blanks in a path do not matter. An operand is not looked at
here: a variable may have a name that reads like an operation.
-/

namespace RequestBook

/-- Why an expression has no value. -/
inductive EvalError where
  | empty
  | unknownEvaluator (tag : Text)
  | segmentCount (got : Nat)
  | unknownSegment (segment : Text)
  | badOperand (operand : Text)
  | unknownUnit (unit : Text)
  | typeMismatch (operator : Char) (operand value : Text)
  | overflow
  | divisionByZero
  | badIdentityNumber (input : Text)
  deriving DecidableEq, Repr

/-- The error in words. -/
def EvalError.message : EvalError → Text
  | empty => "empty expression".toList
  | unknownEvaluator tag => "unknown evaluator '".toList ++ tag ++ ['\'']
  | segmentCount got => "expected 2 or 3 segments, got ".toList ++ Text.ofNat got
  | unknownSegment segment => "unrecognized segment '".toList ++ segment ++ ['\'']
  | badOperand operand => "cannot parse operand '".toList ++ operand ++ ['\'']
  | unknownUnit unit => "unknown unit '".toList ++ unit ++ ['\'']
  | typeMismatch operator operand value =>
    "cannot apply '".toList ++ [operator] ++ "' with operand '".toList ++ operand
      ++ "' to ".toList ++ value
  | overflow => "arithmetic overflow".toList
  | divisionByZero => "division by zero".toList
  | badIdentityNumber input => "invalid identity number input '".toList ++ input ++ ['\'']

/-- What an operation does. -/
inductive Operator where
  | add
  | sub
  | mul
  | div
  | rem
  deriving DecidableEq, Repr

namespace Operator

/-- The operator that a character stands for. -/
def ofChar? : Char → Option Operator
  | '+' => some add
  | '-' => some sub
  | '*' => some mul
  | '/' => some div
  | '%' => some rem
  | _ => none

/-- The character of an operator. -/
def symbol : Operator → Char
  | add => '+'
  | sub => '-'
  | mul => '*'
  | div => '/'
  | rem => '%'

end Operator

/-- An operator and the text of its operand. -/
structure Operation where
  operator : Operator
  operand : Text
  deriving DecidableEq, Repr

/-- An expression in its parts. -/
structure Expression where
  /-- The whole text, blanks at its ends removed. -/
  text : Text
  /-- The first segment, in small letters. -/
  tag : Text
  /-- All segments, without blanks. -/
  segments : List Text
  operation : Option Operation
  format : Option Text
  deriving DecidableEq, Repr

namespace Expression

/-- What parts a format from the rest. -/
def formatMark : Text := ['=', '>']

/-- What parts one segment from the next. -/
def segmentMark : Char := '.'

/-- What the tag of a built-in evaluator begins with. -/
def evaluatorMark : Char := '$'

/-- The operator that begins an operation where the text begins: a plus or a
minus that introduces a number. -/
def operationHead? : Text → Option (Operator × Text)
  | c :: rest =>
    let introduces := ((Text.trimStart rest).head?).any Char.isDigit
    if introduces then
      if c = '+' then some (.add, rest)
      else if c = '-' then some (.sub, rest)
      else none
    else none
  | [] => none

/-- A path cut at its operation: what is before it, and the operation. -/
def cutOperation : Text → Text × Option Operation
  | [] => ([], none)
  | c :: rest =>
    match operationHead? (c :: rest) with
    | some (operator, operand) => ([], some ⟨operator, Text.trim operand⟩)
    | none =>
      let (before, operation) := cutOperation rest
      (c :: before, operation)

/-- A text cut at its format: what is before it, and the format unless it is
blank. -/
def cutFormat (t : Text) : Text × Option Text :=
  match Text.cut? formatMark t with
  | none => (t, none)
  | some (path, format) =>
    let format := Text.trim format
    (path, if format.isEmpty then none else some format)

/-- The segments of a path. -/
def segmentsOf (path : Text) : List Text :=
  Text.fields segmentMark (path.filter fun c => !Text.isBlank c)

/-- The expression that a text holds. Only a blank text holds none. -/
def parse (input : Text) : Except EvalError Expression :=
  let text := Text.trim input
  if text.isEmpty then .error .empty
  else
    let (path, format) := cutFormat text
    let (path, operation) := cutOperation path
    let segments := segmentsOf path
    .ok { text, tag := Text.lower (segments.headD []), segments, operation, format }

/-- Whether the expression asks a built-in evaluator, and not a variable. -/
def isBuiltin (e : Expression) : Bool := Text.startsWith [evaluatorMark] e.tag

/-- The segments after the first. -/
def arguments (e : Expression) : List Text := e.segments.drop 1

end Expression

end RequestBook
