import RequestBook.Arguments.Page
import RequestBook.Environment

/-!
# Commands

There are two: one runs the requests of a document, one runs the tests in a
file or a folder. Arguments that name neither are for the first, so its name
may be left out. It is put in before the first argument that has no dash,
and what stands before that is for the program as a whole.
-/

namespace RequestBook

/-- What to do with a document. -/
structure RunOptions where
  file : Text
  names : List Text := []
  environment : Text := "dev".toList
  environmentFile : Option Text := none
  settings : List (Text × Text) := []
  check : Bool := false
  nodes : Bool := false
  list : Bool := false
  json : Bool := false
  quiet : Bool := false
  deriving DecidableEq, Repr

/-- Which tests to run. -/
structure TestOptions where
  path : Text
  categories : List Text := []
  listCategories : Bool := false
  deriving DecidableEq, Repr

/-- What is asked of the program. -/
inductive Command where
  | run (options : RunOptions)
  | test (options : TestOptions)
  deriving DecidableEq, Repr

/-- A command, and whether its report may have colors. -/
structure Invocation where
  command : Command
  plain : Bool := false
  deriving DecidableEq, Repr

/-- Why arguments ask for no command: a page or the version is wanted,
nothing at all is given, or there is a mistake. -/
inductive Refusal where
  | page (usage : Usage)
  | version
  | nothing
  | mistake (usage : Usage) (error : UsageError)

namespace Command

/-! ## Usages -/

/-- Name and number of the program. -/
def programVersion : Text := "toys 0.1.0".toList

/-- Turns colors off. -/
def noColor : Switch where
  name := "no-color".toList
  about := "Disable colored output".toList

/-- Asks for a log with more in it. The log is left out here, so the switch is read
and nothing comes of it. -/
def verbose : Switch where
  name := "verbose".toList
  letter := some 'v'
  about := "Log debug output to stderr (overridden by RUST_LOG)".toList

/-- Asks for the page of a command. -/
def help : Switch where
  name := "help".toList
  letter := some 'h'
  isQuestion := true
  about := "Print help".toList

/-- Asks for the number of the program. -/
def version : Switch where
  name := "version".toList
  letter := some 'V'
  isQuestion := true
  about := "Print version".toList

/-- What runs the requests of a document. -/
def runUsage : Usage where
  command := "toys run".toList
  about := "Resolve and execute requests from a markdown document".toList
  slots := [
    { name := "FILE".toList
      mayBeEmpty := false
      about := "Markdown document with request definitions".toList },
    { name := "NAMES".toList
      mayRepeat := true
      mayBeLeftOut := true
      about :=
        "Requests to run (\x60Parent@Heading\x60, case-insensitive). All when omitted".toList }]
  switches := [
    { name := "env".toList
      letter := some 'e'
      value := some { name := "ENV".toList }
      about := "Environment to take variables from [default: dev]".toList },
    noColor,
    { name := "env-file".toList
      value := some { name := "ENV_FILE".toList, mayBeEmpty := false }
      about := ("Environment file (.toml or .json). " ++
        "Defaults to toys.env.toml next to the document").toList },
    verbose,
    { name := "var".toList
      value := some {
        name := "KEY=VALUE".toList
        mayRepeat := true
        fault? := fun argument =>
          if (Variables.readSetting? argument).isSome then none
          else some (Variables.settingFault argument) }
      about := "Extra variable, overrides the environment. Repeatable".toList },
    { name := "check".toList
      about := "Parse only, report diagnostics and exit".toList },
    { name := "nodes".toList
      about := "Dump the parsed node tree".toList },
    { name := "list".toList
      about := "List request names with their kind, method and url".toList },
    { name := "json".toList
      about := "Print the resolved requests as JSON instead of executing them".toList },
    { name := "quiet".toList
      letter := some 'q'
      about := "Suppress transport output (just check for errors)".toList },
    help]

/-- What runs tests. -/
def testUsage : Usage where
  command := "toys test".toList
  about := "Run .test.md test files".toList
  slots := [
    { name := "PATH".toList
      mayBeEmpty := false
      about := "Path to a .test.md file or directory containing them".toList }]
  switches := [
    { name := "category".toList
      letter := some 'c'
      value := some { name := "CATEGORY".toList, mayRepeat := true }
      about := "Run only tests in these categories (subfolder names). Repeatable".toList },
    noColor,
    { name := "list-categories".toList
      about := "List available categories and exit".toList },
    verbose,
    help]

/-- What shows the page of another command. -/
def helpUsage : Usage where
  command := "toys help".toList
  about := "Print this message or the help of the given subcommand(s)".toList
  slots := [
    { name := "COMMAND".toList
      mayRepeat := true
      mayBeLeftOut := true
      about := "Print help for the subcommand(s)".toList }]
  switches := []

/-- The subcommands by name. -/
def subcommands : List (Text × Usage) :=
  [("run".toList, runUsage), ("test".toList, testUsage), ("help".toList, helpUsage)]

/-- The program as a whole. -/
def programUsage : Usage where
  command := "toys".toList
  about := "Run requests written as markdown".toList
  subcommands := subcommands.map fun (name, usage) => (name, usage.about)
  switches := [noColor, verbose, help, version]

/-! ## Reading -/

/-- The options of a run. -/
def runOptions (given : Given) : RunOptions where
  file := given.plains.headD []
  names := given.plains.drop 1
  environment := ((given.valuesOf "env".toList).head?).getD "dev".toList
  environmentFile := (given.valuesOf "env-file".toList).head?
  settings := (given.valuesOf "var".toList).filterMap Variables.readSetting?
  check := given.has "check".toList
  nodes := given.has "nodes".toList
  list := given.has "list".toList
  json := given.has "json".toList
  quiet := given.has "quiet".toList

/-- The options of a test run. -/
def testOptions (given : Given) : TestOptions where
  path := given.plains.headD []
  categories := given.valuesOf "category".toList
  listCategories := given.has "list-categories".toList

/-- What is given to a command, or why nothing is. -/
def readGiven (usage : Usage) (arguments : List Text) :
    Except Refusal (Given × Option (Text × List Text)) :=
  match usage.read arguments with
  | .ok given => .ok given
  | .error (.question name) =>
    .error (if name = version.name then .version else .page usage)
  | .error (.mistake error) => .error (.mistake usage error)

/-- The page that the names after `help` lead to. A command has no commands
below it. -/
def pageFor : List Text → Refusal
  | [] => .page programUsage
  | name :: rest =>
    match subcommands.lookup name, rest with
    | none, _ => .mistake programUsage (.unknownSubcommand name)
    | some usage, [] => .page usage
    | some usage, other :: _ => .mistake usage (.unknownSubcommand other)

/-- The command that arguments ask for, its name among them. -/
def readNamed (arguments : List Text) : Except Refusal Invocation := do
  let (program, subcommand) ← readGiven programUsage arguments
  match subcommand with
  | none =>
    if program.marks.isEmpty then throw .nothing
    else throw (.mistake programUsage (.noSubcommand programUsage.command))
  | some (name, arguments) =>
    if name = "help".toList then throw (pageFor arguments)
    else
      let isTest := name = "test".toList
      let (given, _) ← readGiven (if isTest then testUsage else runUsage) arguments
      return {
        command := if isTest then .test (testOptions given) else .run (runOptions given)
        plain := program.has noColor.name || given.has noColor.name }

/-- The arguments with the name of the first command put in before the first
plain one, unless that names a command already. -/
def withName : List Text → List Text
  | [] => []
  | argument :: rest =>
    if argument.head? = some '-' then argument :: withName rest
    else if (subcommands.lookup argument).isSome then argument :: rest
    else "run".toList :: argument :: rest

/-- The command that arguments ask for. -/
def read (arguments : List Text) : Except Refusal Invocation := readNamed (withName arguments)

end Command

end RequestBook
