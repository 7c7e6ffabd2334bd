import RequestBook.Extraction
import RequestBook.Grammar

/-!
# Request books

A request book is a document together with the requests found in it, and
every problem met in reading it: first those with its lines, then those with
its sections. A request is looked up by its name; a name that is not there
to the letter is looked for again in small letters.
-/

namespace RequestBook

/-- A document and its requests. -/
structure Book where
  outline : Outline
  requests : List (Text × Request)
  diagnostics : List Diagnostic

namespace Book

/-- The book of a document. -/
def ofOutline (outline : Outline) : Book :=
  let found := extract outline.blocks
  { outline
    requests := found.requests
    diagnostics := outline.diagnostics ++ found.diagnostics }

/-- The book of a text, read with the standard grammar. -/
def compile (text : Text) : Book := ofOutline (Grammar.standard.readText text)

/-- The names of the requests, in order. -/
def names (book : Book) : List Text := book.requests.map Prod.fst

/-- The request of a name: the very name first, then the first one that is
equal in small letters. -/
def find (book : Book) (name : Text) : Except RequestError Request :=
  match book.requests.lookup name with
  | some request => .ok request
  | none =>
    let wanted := Text.lower name
    match book.requests.find? fun entry => Text.lower entry.1 == wanted with
    | some entry => .ok entry.2
    | none => .error (.notFound name)

end Book

end RequestBook
