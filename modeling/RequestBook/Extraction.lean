import RequestBook.Json.Reader
import RequestBook.Request.Line
import RequestBook.Section

/-!
# What a section asks for

A field is recognised by a word in its heading and the kind of its value: a
quote under a url heading is the request line, and fenced code under a body,
param, pathVar or header heading is that part of the request. Code counts
only when it is marked as json. A part that cannot be decoded is left empty,
which also clears what an earlier field of the same kind had set, and a
warning is kept.

Requests are kept by name in the order of their first section; a later
section of the same name takes the place of the earlier one, with a warning.
-/

namespace RequestBook

/-- Requests by name, and the warnings met on the way. -/
structure Extraction where
  requests : List (Text × Request) := []
  diagnostics : List Diagnostic := []
  deriving DecidableEq

/-! ## Json blocks -/

/-- Whether a fence holds json. -/
def isJson (lang : Text) : Bool := lang == "json".toList

/-- What a block holds, decoded; its default without json or without any
text, and the default with a warning when it does not decode. -/
def decoded {α : Type} (default : α) (decode : Text → Except Json.Fault α) (lang : Text)
    (block : Block) : α × List Diagnostic :=
  if !isJson lang || Text.allBlank block.content then (default, [])
  else
    match decode block.content with
    | .ok value => (value, [])
    | .error fault =>
      (default, [⟨.undecodableJson fault.message, block.firstLine⟩])

/-- Parameters: an object, each value as a text. -/
def decodeParam (t : Text) : Except Json.Fault Fields := do
  let members ← (← Json.read t).asMembers
  return .ofList (members.map fun (key, value) => (key, value.plainText))

/-- Path segments: an array, each item as a text. -/
def decodeSegments (t : Text) : Except Json.Fault (List Text) := do
  let items ← (← Json.read t).asItems
  return items.map Json.plainText

/-- Headers: an object whose values are strings. -/
def decodeHeader (t : Text) : Except Json.Fault Fields := do
  let members ← (← Json.read t).asMembers
  let pairs ← members.mapM fun (key, value) => do
    let value ← value.asText
    return (key, value)
  return .ofList pairs

/-! ## Fields -/

/-- The part of a request that a field sets. -/
inductive FieldRole where
  | line
  | body (lang : Text)
  | param (lang : Text)
  | segments (lang : Text)
  | header (lang : Text)
  deriving DecidableEq, Repr

/-- The part that a field sets, by the words of its heading and the kind of
its value. The words are tried in one order; any other field sets nothing. -/
def fieldRole? (heading value : Block) : Option FieldRole :=
  let mentions (word : String) := Text.holds word.toList heading.content
  match value.kind with
  | .quote => if mentions "url" then some .line else none
  | .fence lang =>
    if mentions "body" then some (.body lang)
    else if mentions "param" then some (.param lang)
    else if mentions "pathVar" then some (.segments lang)
    else if mentions "header" then some (.header lang)
    else none
  | _ => none

/-- A request with one part set from a value, and the warnings of that. -/
def setPart (r : Request) (role : FieldRole) (value : Block) : Request × List Diagnostic :=
  match role with
  | .line =>
    match RequestLine.read? value.content with
    | some line =>
      ({ r with method := line.method, url := line.url, httpVersion := line.version }, [])
    | none => (r, [⟨.unreadableRequestLine, value.firstLine⟩])
  | .body lang => ({ r with body := if isJson lang then value.content else [] }, [])
  | .param lang =>
    let (param, found) := decoded .empty decodeParam lang value
    ({ r with param }, found)
  | .segments lang =>
    let (pathSegments, found) := decoded [] decodeSegments lang value
    ({ r with pathSegments }, found)
  | .header lang =>
    let (header, found) := decoded .empty decodeHeader lang value
    ({ r with header }, found)

/-- A request with one field applied, and the warnings of that. -/
def applyField (r : Request) (field : SectionField) : Request × List Diagnostic :=
  match field.value with
  | none =>
    (r, [⟨.missingValue (Text.trim field.heading.content), field.heading.firstLine⟩])
  | some value =>
    match fieldRole? field.heading value with
    | some role => setPart r role value
    | none => (r, [])

/-- A request with fields applied one after the other. -/
def applyFields : Request → List SectionField → Request × List Diagnostic
  | r, [] => (r, [])
  | r, field :: fields =>
    let (r, found) := applyField r field
    let (r, more) := applyFields r fields
    (r, found ++ more)

/-- The request of a section, and the warnings about its fields. -/
def Section.request (s : Section) : Request × List Diagnostic :=
  applyFields { name := s.name } s.fields

/-! ## All sections -/

/-- An extraction with one more section. -/
def Extraction.add (done : Extraction) (s : Section) : Extraction :=
  let (request, found) := s.request
  let repeated : List Diagnostic :=
    if (done.requests.map Prod.fst).contains s.name then
      [⟨.duplicateName s.name, s.heading.firstLine⟩]
    else []
  { requests := putEntry request.name request done.requests
    diagnostics := done.diagnostics ++ found ++ repeated }

/-- The requests of a list of blocks. -/
def extract (blocks : List Block) : Extraction :=
  (sections blocks).foldl Extraction.add {}

end RequestBook
