import RequestBook.Json.Reader
import RequestBook.Request

/-!
# Requests as JSON

A request is written as an object with its fields in one order and its maps
as objects in theirs. It is read from an object in any order, or from an
array in that one order. Name, url, method and version must be there; the
rest may be left out. An object may hold more than a request needs, an array
may not.
-/

namespace RequestBook

namespace Request

/-! ## Writing -/

/-- A map as an object. -/
def fieldsJson (fields : Fields) : Json :=
  .object (fields.entries.map fun (key, value) => (key, .string value))

/-- The request as an object. -/
def json (r : Request) : Json :=
  .object [
    ("name".toList, .string r.name),
    ("url".toList, .string r.url),
    ("method".toList, .string r.method),
    ("httpVersion".toList, .string r.httpVersion),
    ("header".toList, fieldsJson r.header),
    ("param".toList, fieldsJson r.param),
    ("pathSegments".toList, .array (r.pathSegments.map .string)),
    ("body".toList, .string r.body)]

/-! ## Reading -/

/-- The names of the fields, in order. -/
def fieldNames : List String :=
  ["name", "url", "method", "httpVersion", "header", "param", "pathSegments", "body"]

/-- A map from an object whose values are strings. -/
def fieldsOf (j : Json) : Except Json.Fault Fields := do
  let members ← j.asMembers
  let pairs ← members.mapM fun (key, value) => do
    let value ← value.asText
    return (key, value)
  return .ofList pairs

/-- Texts from an array of strings. -/
def textsOf (j : Json) : Except Json.Fault (List Text) := do
  let items ← j.asItems
  items.mapM Json.asText

/-- A field that must be there. -/
def required {α : Type} (name : String) (read : Json → Except Json.Fault α) :
    Option Json → Except Json.Fault α
  | some value => read value
  | none => .error (.missingField name)

/-- A field that may be left out. -/
def optional {α : Type} (default : α) (read : Json → Except Json.Fault α) :
    Option Json → Except Json.Fault α
  | some value => read value
  | none => .ok default

/-- A request from the values of its fields. -/
def ofValues (value? : String → Option Json) : Except Json.Fault Request := do
  let name ← required "name" Json.asText (value? "name")
  let url ← required "url" Json.asText (value? "url")
  let method ← required "method" Json.asText (value? "method")
  let httpVersion ← required "httpVersion" Json.asText (value? "httpVersion")
  let header ← optional .empty fieldsOf (value? "header")
  let param ← optional .empty fieldsOf (value? "param")
  let pathSegments ← optional [] textsOf (value? "pathSegments")
  let body ← optional [] Json.asText (value? "body")
  return { name, url, method, httpVersion, header, param, pathSegments, body }

/-- Whether a key is the name of a field. -/
def isFieldName (key : Text) : Bool := fieldNames.any (·.toList == key)

/-- A request from the members of an object, no two of them for one field. -/
def ofMembers (members : List (Text × Json)) : Except Json.Fault Request := do
  for name in fieldNames do
    if members.countP (·.1 == name.toList) > 1 then throw (.repeatedField name)
  ofValues fun name => members.lookup name.toList

/-- A request from the items of an array. -/
def ofItems (items : List Json) : Except Json.Fault Request :=
  if items.length > fieldNames.length then .error .trailing
  else ofValues fun name => (fieldNames.zip items).lookup name

/-- The request that a text holds. -/
def ofJsonText (t : Text) : Except Json.Fault Request :=
  match Json.skipGap t with
  | '[' :: _ => do ofItems (← (← Json.read t).asItems)
  | _ => do ofMembers (← Json.readWanted isFieldName t)

end Request

end RequestBook
