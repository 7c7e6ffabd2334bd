import RequestBook.Book
import RequestBook.BookTest.Expectations
import RequestBook.Calendar.Reader
import RequestBook.Text.Quoted

/-!
# Checking a document

The document is compiled, and what came of it is held against what is
expected, in a fixed order: the warnings, the names, that the request is
there, and then the request with its placeholders resolved, part by part.
The first thing that differs is the one reported.
-/

namespace RequestBook

/-- Why a document is not as expected. -/
inductive Mismatch where
  | warningCount (expected : Nat) (found : List Diagnostic)
  | warningText (index : Nat) (part : Text) (found : Diagnostic)
  | warningLine (index expected found : Nat)
  | unwanted (name : Text)
  | notFound (request : Option Text) (available : List Text)
  | unreadableMoment (given : Text) (fault : TimestampFault)
  | differs (part expected found : Text)
  deriving DecidableEq, Repr

namespace Mismatch

/-- Warnings in a list, one a line. -/
def warningList (found : List Diagnostic) : Text :=
  if found.isEmpty then "    (none)".toList
  else Text.join ['\n'] (found.map fun d => "  - ".toList ++ d.display)

/-- The mismatch in words. -/
def message : Mismatch → Text
  | warningCount expected found =>
    "expected ".toList ++ Text.ofNat expected ++ " warning(s), got ".toList
      ++ Text.ofNat found.length ++ "\n  actual warnings:\n".toList ++ warningList found
  | warningText index part found =>
    "warning[".toList ++ Text.ofNat index ++ "]: expected message containing \"".toList
      ++ part ++ "\", got: ".toList ++ found.display
  | warningLine index expected found =>
    "warning[".toList ++ Text.ofNat index ++ "]: expected on line ".toList
      ++ Text.ofNat expected ++ ", but it is on line ".toList ++ Text.ofNat found
  | unwanted name => "expected no request, found '".toList ++ name ++ ['\'']
  | notFound request available =>
    "request ".toList ++ request.getD "(first)".toList ++ " not found (available: ".toList
      ++ Text.join ", ".toList available ++ [')']
  | unreadableMoment given fault =>
    "invalid \x60now\x60 '".toList ++ given ++ "': ".toList ++ fault.message
  | differs part expected found =>
    part ++ " mismatch\n  expected: ".toList ++ expected ++ "\n  actual:   ".toList ++ found

end Mismatch

namespace Expectations

/-! ## Showing what differs -/

/-- Texts between quotes, in brackets. -/
def shownList (texts : List Text) : Text :=
  ['['] ++ Text.join [',', ' '] (texts.map Text.quoted) ++ [']']

/-- Keys and values between quotes, in braces. -/
def shownMap (entries : List (Text × Text)) : Text :=
  ['\x7b'] ++ Text.join [',', ' '] (entries.map fun (key, value) =>
    Text.quoted key ++ [':', ' '] ++ Text.quoted value) ++ ['\x7d']

/-- Entries in the order of their keys. -/
def byKey (entries : List (Text × Text)) : List (Text × Text) :=
  entries.mergeSort fun a b => Text.le a.1 b.1

/-- Holds what is found against what is expected, if anything is. -/
def agree {α : Type} [DecidableEq α] (part : String) (shown : α → Text) (expected : Option α)
    (found : α) : Except Mismatch Unit :=
  match expected with
  | none => .ok ()
  | some wanted =>
    if wanted = found then .ok ()
    else .error (.differs part.toList (shown wanted) (shown found))

/-! ## Warnings -/

/-- Holds one warning against the one that is expected in its place. -/
def checkWarning (index : Nat) (found : Diagnostic) (expected : ExpectedWarning) :
    Except Mismatch Unit := do
  if !Text.holds expected.part found.message then
    throw (.warningText index expected.part found)
  match expected.line with
  | none => return
  | some line => if found.line ≠ line then throw (.warningLine index line found.line)

/-- Holds the warnings of a document against those that are expected. -/
def checkWarnings (diagnostics : List Diagnostic) (expected : List ExpectedWarning) :
    Except Mismatch Unit := do
  let found := diagnostics.filter (·.isWarning)
  if found.length ≠ expected.length then throw (.warningCount expected.length found)
  (found.zip expected).zipIdx.forM fun ((found, expected), index) =>
    checkWarning index found expected

/-! ## The request -/

/-- The request that the test looks at, if there is one. -/
def requestIn (e : Expectations) (book : Book) : Option Request :=
  match e.request with
  | some name => (book.find name).toOption
  | none => book.requests.head?.map Prod.snd

/-- The moment at which placeholders are resolved: the one the test names, or
the present one. -/
def moment (e : Expectations) (now : Timestamp) : Except Mismatch Timestamp :=
  match e.now with
  | none => .ok now
  | some given => (Timestamp.read given).mapError (.unreadableMoment given)

/-- Holds a resolved request against what is expected of it. -/
def checkRequest (e : Expectations) (r : Request) : Except Mismatch Unit := do
  agree "method" Text.quoted e.method r.method
  agree "url" Text.quoted e.url r.url
  agree "version" Text.quoted e.version r.httpVersion
  agree "header" shownMap (e.header.map byKey) (byKey r.header.entries)
  agree "param" shownMap (e.param.map byKey) (byKey r.param.entries)
  agree "path segments" shownList e.path r.pathSegments
  agree "body" Text.quoted (e.body.map Text.trim) (Text.trim r.body)
  agree "target" Text.quoted e.target r.target

/-- Holds a document against what is expected of it. -/
def check (e : Expectations) (now : Timestamp) (draws : Draws) (document : Text) :
    Except Mismatch Unit := do
  let book := Book.compile document
  (e.warnings).forM (checkWarnings book.diagnostics)
  agree "request names" shownList e.requests book.names
  match e.requestIn book, e.missing with
  | none, true => return
  | some r, true => throw (.unwanted r.name)
  | none, false => throw (.notFound e.request book.names)
  | some r, false =>
    let now ← e.moment now
    e.checkRequest ((Engine.standard now).resolveRequest e.given draws r)

end Expectations

end RequestBook
