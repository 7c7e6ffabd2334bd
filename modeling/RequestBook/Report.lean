import RequestBook.Text

/-!
# Reports

What comes of a command: what it prints, what it says beside that, and its
exit code.
-/

namespace RequestBook

/-- What a command answers. -/
structure Report where
  /-- What it prints. -/
  out : Text := []
  /-- What it says beside that. The log is left out. -/
  err : Text := []
  code : Nat := 0
  deriving DecidableEq, Repr

namespace Report

/-- Lines, each with its end. -/
def linesText (lines : List Text) : Text := lines.flatMap fun line => line ++ ['\n']

/-- What is said of an error. -/
def errorLine (message : Text) : Text := "error: ".toList ++ message ++ ['\n']

/-- The report of a command that came to nothing. -/
def failure (message : Text) : Report := { err := errorLine message, code := 1 }

/-- The report with something said before it. -/
def after (report : Report) (said : Text) : Report := { report with err := said ++ report.err }

end Report

end RequestBook
