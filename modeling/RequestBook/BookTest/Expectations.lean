import RequestBook.Engine
import RequestBook.Toml.Reader

/-!
# Expectations

What a test says about its document: which request it looks at, with which
variables and at which moment, and what it expects to find. All of it may be
left out, and only what is there is checked. Keys that mean nothing are
passed over.
-/

namespace RequestBook

/-- A warning that a document has to give. -/
structure ExpectedWarning where
  /-- What its message holds. -/
  part : Text
  /-- Its line, if that matters. -/
  line : Option Nat := none
  deriving DecidableEq, Repr

/-- What a test says about its document. -/
structure Expectations where
  description : Option Text := none
  /-- The name of the request; the first one when it is left out. -/
  request : Option Text := none
  /-- The moment at which placeholders are resolved. -/
  now : Option Text := none
  given : Variables := []
  requests : Option (List Text) := none
  /-- Whether there has to be no such request. -/
  missing : Bool := false
  method : Option Text := none
  url : Option Text := none
  version : Option Text := none
  header : Option (List (Text × Text)) := none
  param : Option (List (Text × Text)) := none
  path : Option (List Text) := none
  body : Option Text := none
  target : Option Text := none
  warnings : Option (List ExpectedWarning) := none
  deriving DecidableEq, Repr

namespace ExpectedWarning

/-- An expected warning from its parts: what the message holds, and the
line. -/
def ofParts (part line : Option Toml) : Except Toml.Fault ExpectedWarning := do
  match part with
  | none => throw (.missingKey "contains")
  | some part =>
    let part ← part.asText
    let line ← line.mapM Toml.asCount
    return { part, line }

/-- An expected warning from a table by name, or from an array by place. -/
def ofToml : Toml → Except Toml.Fault ExpectedWarning
  | .table entries => ofParts (entries.lookup "contains".toList) (entries.lookup "line".toList)
  | .array items => ofParts items[0]? items[1]?
  | _ => .error (.wrongType "a warning")

end ExpectedWarning

namespace Expectations

/-- The expectations in the entries of a table. -/
def ofEntries (entries : List (Text × Toml)) : Except Toml.Fault Expectations := do
  let field {α : Type} (key : String) (read : Toml → Except Toml.Fault α) :
      Except Toml.Fault (Option α) := (entries.lookup key.toList).mapM read
  return {
    description := ← field "description" Toml.asText
    request := ← field "request" Toml.asText
    now := ← field "now" Toml.asText
    given := Variables.setAll [] ((← field "variables" Toml.asTextEntries).getD [])
    requests := ← field "expect_requests" Toml.asTexts
    missing := (← field "expect_missing" Toml.asBool).getD false
    method := ← field "expect_method" Toml.asText
    url := ← field "expect_url" Toml.asText
    version := ← field "expect_version" Toml.asText
    header := ← field "expect_header" Toml.asTextEntries
    param := ← field "expect_param" Toml.asTextEntries
    path := ← field "expect_path" Toml.asTexts
    body := ← field "expect_body" Toml.asText
    target := ← field "expect_target" Toml.asText
    warnings := ← field "expect_warnings" fun t => do (← t.asItems).mapM ExpectedWarning.ofToml }

/-- The expectations in a text of front matter. -/
def ofText (t : Text) : Except Toml.Fault Expectations := do
  ofEntries (← (← Toml.read t).asEntries)

end Expectations

end RequestBook
