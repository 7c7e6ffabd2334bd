import RequestBook.Evaluator
import RequestBook.Placeholder
import RequestBook.Request

/-!
# Resolving placeholders

An engine knows the evaluators by tag and the present moment. An expression
whose tag begins with a dollar sign goes to its evaluator, and its operation
is applied to the answer. Any other expression is the name of a variable, in
full; a name that nobody has set stands for itself.

In a text each placeholder is replaced by the text of its value, and one
without a value is left as it is written. What a value brings in is not
looked at again.
-/

namespace RequestBook

/-- Variables by name. The first entry of a name counts. -/
abbrev Variables := List (Text × Text)

namespace Variables

/-- The variables after one is set. -/
def set (vars : Variables) (name value : Text) : Variables :=
  (name, value) :: vars.filter (·.1 ≠ name)

/-- The variables after all of a list are set in turn. -/
def setAll (vars : Variables) (more : List (Text × Text)) : Variables :=
  more.foldl (fun vars entry => vars.set entry.1 entry.2) vars

end Variables

/-- Evaluators by tag, and the present moment. -/
structure Engine where
  evaluators : List (Text × Evaluator)
  now : Timestamp

namespace Engine

/-- The engine with the built-in evaluators. -/
def standard (now : Timestamp) : Engine := { evaluators := Evaluator.standard, now }

/-- The engine with one more evaluator, in the place of an earlier one of its
tag. -/
def insert (engine : Engine) (tag : Text) (evaluator : Evaluator) : Engine :=
  let tag := Text.lower tag
  { engine with
    evaluators := engine.evaluators.filter (·.1 ≠ tag) ++ [(tag, evaluator)] }

/-- The tags in order. -/
def tags (engine : Engine) : List Text :=
  (engine.evaluators.map Prod.fst).mergeSort Text.le

/-- The value of an expression that was read from a text. -/
def valueOf (engine : Engine) (vars : Variables) (draws : Draws) (text : Text)
    (e : Expression) : Except EvalError Value :=
  if e.isBuiltin then
    match engine.evaluators.lookup e.tag with
    | none => .error (.unknownEvaluator e.tag)
    | some evaluator => do
      let value ← evaluator e engine.now draws
      match e.operation with
      | none => .ok value
      | some operation =>
        let operand ← operation.read
        value.apply operation.operator operand
  else .ok (.text ((vars.lookup e.text).getD text))

/-- The value of the expression in a text. -/
def evaluate (engine : Engine) (vars : Variables) (draws : Draws) (text : Text) :
    Except EvalError Value := do
  let e ← Expression.parse text
  engine.valueOf vars draws text e

/-- The value of the expression in a text, written in its format. -/
def render (engine : Engine) (vars : Variables) (draws : Draws) (text : Text) :
    Except EvalError Text := do
  let e ← Expression.parse text
  let value ← engine.valueOf vars draws text e
  return value.render e.format

/-- What comes in the place of a piece. -/
def replace (engine : Engine) (vars : Variables) (draws : Draws) : Piece → Text
  | .plain c => [c]
  | .placeholder body =>
    match engine.render vars draws body with
    | .ok text => text
    | .error _ => (Piece.placeholder body).written

/-- The text with its placeholders resolved. A text that opens none is not
searched for them. -/
def resolve (engine : Engine) (vars : Variables) (draws : Draws) (host : Text) :
    Text :=
  if Text.holds openingBraces host then
    (pieces host).zipIdx.flatMap fun (piece, index) =>
      engine.replace vars (draws.branch index) piece
  else host

/-- The map with its keys and values resolved. -/
def resolveFields (engine : Engine) (vars : Variables) (draws : Draws)
    (fields : Fields) : Fields :=
  .ofList (fields.entries.zipIdx.map fun ((key, value), index) =>
    (engine.resolve vars ((draws.branch index).branch 0) key,
      engine.resolve vars ((draws.branch index).branch 1) value))

/-- The request with all resolved but its name, method and version. -/
def resolveRequest (engine : Engine) (vars : Variables) (draws : Draws)
    (r : Request) : Request :=
  { r with
    url := engine.resolve vars (draws.branch 0) r.url
    header := engine.resolveFields vars (draws.branch 1) r.header
    param := engine.resolveFields vars (draws.branch 2) r.param
    pathSegments := r.pathSegments.zipIdx.map fun (segment, index) =>
      engine.resolve vars ((draws.branch 3).branch index) segment
    body := engine.resolve vars (draws.branch 4) r.body }

end Engine

end RequestBook
