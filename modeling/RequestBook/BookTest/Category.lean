import RequestBook.FileTree

/-!
# Categories of tests

Tests lie in a folder and in the folders below it. The way from that folder
to a test is its category, so a category holds the tests of one folder and
has categories below it. Categories go by name and their tests by path.

A request for a category asks for those below it too. What is asked for
twice is chosen once.
-/

namespace RequestBook

/-- A test file: the steps that lead to it, and its bytes. -/
structure TestFile where
  steps : List Text
  content : ByteArray

/-- A folder of tests. -/
structure Category where
  name : Text
  tests : List TestFile

namespace TestFile

/-- What the name of a test file ends with. -/
def ending : Text := ".test.md".toList

/-- The category of a test: the steps to its folder with slashes between
them, backslashes counting as slashes. -/
def category (test : TestFile) : Text :=
  (Text.join ['/'] test.steps.dropLast).map fun c => if c = '\\' then '/' else c

/-- The order of paths, step by step. -/
def stepsLe : List Text → List Text → Bool
  | [], _ => true
  | _ :: _, [] => false
  | a :: s, b :: t => if a = b then stepsLe s t else Text.le a b

/-- The tests in a folder and below it, in no order. -/
def findIn (tree : FileTree) : List TestFile :=
  (FileTree.filesIn tree.entries).filterMap fun (steps, content) =>
    if steps.getLast?.any (Text.endsWith ending) then some ⟨steps, content⟩ else none

end TestFile

namespace Category

/-- The category as reports name it. -/
def label (name : Text) : Text := if name.isEmpty then "(root)".toList else name

/-- Tests by category. -/
def group (tests : List TestFile) : List Category :=
  ((tests.map (·.category)).eraseDups.mergeSort Text.le).map fun name =>
    { name
      tests := (tests.filter (·.category = name)).mergeSort fun a b =>
        TestFile.stepsLe a.steps b.steps }

/-- A name without the slashes at its ends. -/
def trimSlashes (name : Text) : Text :=
  ((name.dropWhile (· = '/')).reverse.dropWhile (· = '/')).reverse

/-- Whether a request asks for a category: it names it or one above it. -/
def asksFor (request name : Text) : Bool :=
  name == request || Text.startsWith (request ++ ['/']) name

/-- What has been chosen by the requests so far, and the requests that chose
nothing new. -/
structure Selection where
  chosen : List Text := []
  idle : List Text := []
  deriving DecidableEq, Repr

/-- The selection after one more request for some of the names. -/
def Selection.add (names : List Text) (selection : Selection) (request : Text) : Selection :=
  let request := trimSlashes request
  let found := names.filter fun name =>
    asksFor request name && !selection.chosen.contains name
  if found.isEmpty then { selection with idle := selection.idle ++ [request] }
  else { selection with chosen := selection.chosen ++ found }

/-- What requests choose among categories. -/
def select (all : List Category) (requests : List Text) : Selection :=
  requests.foldl (Selection.add (all.map (·.name))) {}

/-- The categories that are chosen, all when none is asked for. -/
def chosen (all : List Category) (requests : List Text) : List Category :=
  if requests.isEmpty then all
  else all.filter fun category => (select all requests).chosen.contains category.name

/-- What is said of a request that chose nothing new. -/
def warning (all : List Category) (request : Text) : Text :=
  "warning: category '".toList ++ request ++ "' not found (available: ".toList
    ++ Text.join ", ".toList (all.map fun category => label category.name) ++ ")\n".toList

end Category

end RequestBook
