import RequestBook.BookTest.Category
import RequestBook.BookTest.Check
import RequestBook.BookTest.FrontMatter
import RequestBook.Command
import RequestBook.Report

/-!
# Running tests

A path leads to one test or to a folder of tests by category. Every chosen
test is run once. A test that cannot be read fails like one whose document
is not as expected. A line is told for each test as it comes, then why those
that failed did, and then how many there were.
-/

namespace RequestBook

/-- Why a test fails. -/
inductive TestFailure where
  | unreadable (fault : FileFault)
  | noFrontMatter (fault : FrontMatterFault)
  | badFrontMatter (fault : Toml.Fault)
  | mismatch (reason : Mismatch)
  deriving DecidableEq, Repr

/-- The failure in words. -/
def TestFailure.message : TestFailure → Text
  | unreadable fault => "cannot read file: ".toList ++ fault.message
  | noFrontMatter fault => "front matter error: ".toList ++ fault.message
  | badFrontMatter fault =>
    "front matter error: TOML parse error: ".toList ++ fault.message
  | mismatch reason => reason.message

/-- What came of one test. -/
structure TestResult where
  path : Text
  description : Option Text
  failure : Option TestFailure
  deriving DecidableEq, Repr

namespace TestResult

/-- Whether the test passed. -/
def passed (r : TestResult) : Bool := r.failure.isNone

/-- The test as its line names it: by its description, or else by its file. -/
def label (r : TestResult) : Text :=
  (r.description <|> Path.stem? r.path).getD ['?']

/-- Runs the test that a text holds. -/
def ofText (now : Timestamp) (draws : Draws) (path text : Text) : TestResult :=
  match FrontMatter.split text with
  | .error fault => { path, description := none, failure := some (.noFrontMatter fault) }
  | .ok (front, document) =>
    match Expectations.ofText front with
    | .error fault => { path, description := none, failure := some (.badFrontMatter fault) }
    | .ok expectations =>
      { path
        description := expectations.description
        failure :=
          match expectations.check now draws document with
          | .ok () => none
          | .error reason => some (.mismatch reason) }

/-- Runs the test that bytes hold. -/
def ofBytes (now : Timestamp) (draws : Draws) (path : Text) (content : ByteArray) :
    TestResult :=
  match FileTree.textOf content with
  | .error fault => { path, description := none, failure := some (.unreadable fault) }
  | .ok text => ofText now draws path text

end TestResult

namespace TestSuite

/-! ## Telling -/

/-- A text in a color, unless the report is plain. -/
def paint (plain : Bool) (code text : Text) : Text :=
  if plain then text
  else [Char.ofNat 27, '['] ++ code ++ ['m'] ++ text ++ [Char.ofNat 27, '[', '0', 'm']

/-- The line of a test. -/
def resultLine (plain : Bool) (r : TestResult) : Text :=
  let verdict :=
    if r.passed then paint plain "32".toList "PASS".toList
    else paint plain "31".toList "FAIL".toList
  [' ', ' '] ++ verdict ++ [' ', ' '] ++ r.label

/-- The lines that say why tests failed. -/
def failureLines (results : List TestResult) : List Text :=
  let failed := results.filterMap fun r => r.failure.map fun failure => (r.path, failure)
  if failed.isEmpty then []
  else
    [[], "failures:".toList] ++ failed.flatMap fun (path, failure) =>
      [[], "  --- ".toList ++ path ++ " ---".toList]
        ++ (Text.lines failure.message).map ([' ', ' '] ++ ·)

/-- The lines that say how many tests there were. -/
def summaryLines (plain : Bool) (results : List TestResult) : List Text :=
  let passed := results.countP (·.passed)
  let failed := results.length - passed
  let verdict :=
    if failed = 0 then paint plain "32".toList "ok".toList
    else paint plain "31".toList "FAILED".toList
  let total :=
    if failed = 0 then [] else " (of ".toList ++ Text.ofNat results.length ++ [')']
  [[], "test result: ".toList ++ verdict ++ ". ".toList ++ Text.ofNat passed
    ++ " passed, ".toList ++ Text.ofNat failed ++ " failed".toList ++ total]

/-- The exit code of tests: none may have failed. -/
def exitCode (results : List TestResult) : Nat := if results.all (·.passed) then 0 else 1

/-- The report of tests, given what is told of each as it comes. -/
def resultsReport (plain : Bool) (told : List Text) (results : List TestResult) : Report where
  err := Report.linesText (told ++ failureLines results ++ summaryLines plain results)
  code := exitCode results

/-! ## Running -/

/-- The path to a test in a folder, as reports name it. -/
def pathOf (folder : Text) (test : TestFile) : Text :=
  Path.inFolder folder (Text.join ['/'] test.steps)

/-- Runs the tests of categories in order. -/
def runCategories (now : Timestamp) (draws : Draws) (folder : Text)
    (categories : List Category) : List (Text × List TestResult) :=
  categories.zipIdx.map fun (category, index) =>
    (category.name, category.tests.zipIdx.map fun (test, place) =>
      .ofBytes now ((draws.branch index).branch place) (pathOf folder test) test.content)

/-- What is told of the tests of a category as they come. -/
def categoryLines (plain : Bool) (name : Text) (results : List TestResult) : List Text :=
  [[], paint plain ['1'] (Category.label name)] ++ results.map (resultLine plain)

/-- The report of one test. -/
def fileReport (plain : Bool) (now : Timestamp) (draws : Draws) (path : Text)
    (content : ByteArray) : Report :=
  let result := TestResult.ofBytes now draws path content
  resultsReport plain [resultLine plain result] [result]

/-- What is said where there is no test. -/
def noTests (path : Text) : Text :=
  Report.linesText ["no .test.md files found in ".toList ++ path]

/-- The report of the tests in a folder. -/
def folderReport (plain : Bool) (now : Timestamp) (draws : Draws) (path : Text)
    (requests : List Text) (all : List Category) : Report :=
  if all.isEmpty then { err := noTests path, code := 1 }
  else
    let warnings := (Category.select all requests).idle.flatMap (Category.warning all)
    let chosen := Category.chosen all requests
    let report : Report :=
      if chosen.isEmpty then
        { err := Report.linesText ["no matching categories found".toList], code := 1 }
      else
        let results := runCategories now draws path chosen
        resultsReport plain
          (results.flatMap fun (name, results) => categoryLines plain name results)
          (results.flatMap Prod.snd)
    report.after warnings

/-- The list of the categories in a folder. -/
def categoriesReport (path : Text) (all : List Category) : Report :=
  if all.isEmpty then { err := noTests path }
  else
    { err := Report.linesText ("available categories:".toList :: all.map fun category =>
        [' ', ' '] ++ Category.label category.name ++ " (".toList
          ++ Text.ofNat category.tests.length ++ " tests)".toList) }

/-- The report of a test run. A path that leads nowhere leads to no test. -/
def report (tree : FileTree) (now : Timestamp) (draws : Draws) (plain : Bool)
    (options : TestOptions) : Report :=
  match tree.find options.path with
  | .ok (.file content) =>
    if options.listCategories then
      { err := Report.linesText ["(single file, no categories)".toList] }
    else fileReport plain now draws options.path content
  | found =>
    let folder := found.toOption.getD .empty
    let all := Category.group (TestFile.findIn folder)
    if options.listCategories then categoriesReport options.path all
    else folderReport plain now draws options.path options.categories all

end TestSuite

end RequestBook
