import RequestBook.BookTest.Suite
import RequestBook.Run

/-!
# The command line

From arguments to a report. What a command needs from outside is given: the
files it may read, the present moment and the random draws.
-/

namespace RequestBook.CommandLine

/-- What is told of a mistake in the arguments of a command. -/
def mistakeText (usage : Usage) (e : UsageError) : Text :=
  Report.errorLine e.message ++ ['\n'] ++ usage.line
    ++ "\n\nFor more information, try '--help'.\n".toList

/-- The report where no command is asked for. A mistake, and nothing at all,
have an exit code of their own. -/
def refusalReport : Refusal → Report
  | .page usage => { out := usage.page }
  | .version => { out := Command.programVersion ++ ['\n'] }
  | .nothing => { err := Command.programUsage.page, code := 2 }
  | .mistake usage e => { err := mistakeText usage e, code := 2 }

/-- The report of a command. -/
def commandReport (tree : FileTree) (now : Timestamp) (draws : Draws)
    (invocation : Invocation) : Report :=
  match invocation.command with
  | .run options => Run.report tree now draws options
  | .test options => TestSuite.report tree now draws invocation.plain options

/-- The report that arguments ask for. -/
def report (tree : FileTree) (now : Timestamp) (draws : Draws) (arguments : List Text) :
    Report :=
  match Command.read arguments with
  | .ok invocation => commandReport tree now draws invocation
  | .error refusal => refusalReport refusal

end RequestBook.CommandLine
