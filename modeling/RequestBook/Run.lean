import RequestBook.Book
import RequestBook.Command
import RequestBook.Formats
import RequestBook.Outline.Dump
import RequestBook.Report
import RequestBook.Request.Json
import RequestBook.Transport

/-!
# Running a document

The document is read first, and its problems are told whatever comes next.
Then one of four things is done with it: it is found readable, its blocks
are dumped, its requests are listed, or they are resolved. Only the last
needs the environment, so only there a missing one is an error. Resolved
requests are printed as JSON or carried out one after the other; a request
that fails does not keep the others from their turn.
-/

namespace RequestBook.Run

/-! ## The document -/

/-- What is told of a problem with a document: what it is, where it is, and
the advice that goes with it. The lines of the document are not drawn. -/
def problemText (path : Text) (d : Diagnostic) : Text :=
  let severity := match d.severity with
    | .error => "error: ".toList
    | .warning => "warning: ".toList
  Report.linesText (
    (severity ++ d.message)
      :: ("  --> ".toList ++ path ++ [':'] ++ Text.ofNat d.line)
      :: d.notes.map ("  = ".toList ++ ·))

/-- That a document can be read, and what is in it. -/
def checkText (path : Text) (book : Book) : Text :=
  "ok: ".toList ++ path ++ " parsed, ".toList ++ Text.ofNat book.requests.length
    ++ " request(s), ".toList ++ Text.ofNat book.diagnostics.length
    ++ " warning(s)\n".toList

/-- The line of a request in a list: its name, service, method and url. -/
def listLine (r : Request) : Text :=
  let service := match r.service with
    | .ok service => service.label
    | .error _ => ['?']
  Text.join ['\t'] [r.name, service, r.method, r.url]

/-! ## Requests -/

/-- The names that are asked for: all when none is. -/
def wanted (book : Book) (names : List Text) : List Text :=
  if names.isEmpty then book.names else names

/-- Each wanted request with its placeholders resolved. -/
def resolved (engine : Engine) (vars : Variables) (draws : Draws) (book : Book)
    (names : List Text) : List (Except RequestError Request) :=
  (wanted book names).zipIdx.map fun (name, index) =>
    (book.find name).map (engine.resolveRequest vars (draws.branch index))

/-- What a list of attempts made. -/
def successes {α : Type} (attempts : List (Except RequestError α)) : List α :=
  attempts.filterMap Except.toOption

/-- What went wrong in a list of attempts. -/
def failures {α : Type} (attempts : List (Except RequestError α)) : List RequestError :=
  attempts.filterMap fun attempt =>
    match attempt with
    | .ok _ => none
    | .error e => some e

/-- The report of one request that was carried out. -/
def dispatchReport (quiet : Bool) (r : Request) : Report :=
  match DryRun.transports.dispatch r with
  | .error e => .failure (r.name ++ ": ".toList ++ e.message)
  | .ok outcome =>
    { out := if quiet then [] else
        "### ".toList ++ r.name ++ " (".toList ++ outcome.status ++ ")\n".toList
          ++ outcome.body ++ ['\n']
      code := if outcome.success then 0 else 1 }

/-- The report of requests carried out one after the other. It fails when one
of them does. -/
def dispatchAll (quiet : Bool) (requests : List Request) : Report :=
  let reports := requests.map (dispatchReport quiet)
  { out := reports.flatMap (·.out)
    err := reports.flatMap (·.err)
    code := if reports.all (·.code == 0) then 0 else 1 }

/-- Requests as a JSON array. -/
def jsonText (requests : List Request) : Text :=
  (Json.array (requests.map Request.json)).indented 0 ++ ['\n']

/-! ## The command -/

/-- The variables of a run: those of the environment, if there is an
environment file, and those that are given over them. -/
def variablesFor (tree : FileTree) (options : RunOptions) : Except EnvironmentError Variables := do
  let own ← match Environments.path? tree options.file options.environmentFile with
    | none => pure []
    | some path => (← Environments.load tree path).variablesOf options.environment
  return Variables.setAll own options.settings

/-- The report of the requests of a book. -/
def requestsReport (engine : Engine) (vars : Variables) (draws : Draws)
    (options : RunOptions) (book : Book) : Report :=
  let attempts := resolved engine vars draws book options.names
  let missing := failures attempts
  let told := missing.flatMap fun e => Report.errorLine e.message
  let report :=
    if options.json then { out := jsonText (successes attempts) }
    else dispatchAll options.quiet (successes attempts)
  { report with
    err := told ++ report.err
    code := if missing.isEmpty then report.code else 1 }

/-- The report of what is asked of a book. -/
def bookReport (tree : FileTree) (now : Timestamp) (draws : Draws) (options : RunOptions)
    (book : Book) : Report :=
  if options.check then { err := checkText options.file book }
  else if options.nodes then { out := Report.linesText book.outline.dump }
  else if options.list then
    { out := Report.linesText (book.requests.map fun entry => listLine entry.2) }
  else
    match variablesFor tree options with
    | .error e => .failure e.display
    | .ok vars =>
      requestsReport (Engine.standard now) vars draws options book

/-- The book in the file that a path leads to, or what is wrong with it. -/
def readBook (tree : FileTree) (path : Text) : Except Text Book :=
  match tree.readText path with
  | .error fault =>
    .error ("cannot read '".toList ++ path ++ "': ".toList ++ fault.message)
  | .ok text =>
    match Formats.standard.grammarFor path with
    | .error e => .error e.message
    | .ok grammar => .ok (.ofOutline (grammar.readText text))

/-- The report of a run. -/
def report (tree : FileTree) (now : Timestamp) (draws : Draws) (options : RunOptions) :
    Report :=
  match readBook tree options.file with
  | .error message => .failure message
  | .ok book =>
    (bookReport tree now draws options book).after
      (book.diagnostics.flatMap (problemText options.file))

end RequestBook.Run
