import RequestBook.Text.Lines

/-!
# Diagnostics

A problem with a document never stops its reading. It is kept beside what
was read, with the line it speaks about. Here is what can be wrong, and for
each problem how severe it is, what is said about it and which advice goes
with it; whoever reports a diagnostic takes all three from here.
-/

namespace RequestBook

/-- How much a problem weighs. -/
inductive Severity where
  | error
  | warning
  deriving DecidableEq, Repr

/-- What is wrong with a place in a document. -/
inductive Problem where
  /-- A construct was asked to take lines that do not begin it. -/
  | expected (construct : Text)
  /-- A fence is opened and no later line closes it. -/
  | unterminatedFence
  /-- A quote under a url heading is no request line. -/
  | unreadableRequestLine
  /-- A json block does not hold what its heading asks for. -/
  | undecodableJson (detail : Text)
  /-- Two requests have one name. -/
  | duplicateName (name : Text)
  /-- A field heading whose value has been taken already or does not exist. -/
  | missingValue (field : Text)
  /-- A problem reported by a construct that is not among the standard ones. -/
  | reported (severity : Severity) (message : Text) (notes : List Text)
  deriving DecidableEq, Repr

namespace Problem

/-- How much the problem weighs. -/
def severity : Problem → Severity
  | expected _ => .error
  | reported severity _ _ => severity
  | _ => .warning

/-- What is said about the problem. -/
def message : Problem → Text
  | expected construct => "expected ".toList ++ construct
  | unterminatedFence => "unterminated code fence".toList
  | unreadableRequestLine => "cannot parse request line".toList
  | undecodableJson detail => "cannot decode json block: ".toList ++ detail
  | duplicateName name => "duplicate request name '".toList ++ name ++ ['\'']
  | missingValue field => "field '".toList ++ field ++ "' has no value".toList
  | reported _ message _ => message

/-- The advice that goes with the problem. -/
def notes : Problem → List Text
  | unterminatedFence =>
    ["the block was ignored; close it with a line containing only \x60\x60\x60".toList]
  | unreadableRequestLine =>
    ["expected \x60METHOD http://host/path [HTTP/version]\x60".toList]
  | duplicateName _ => ["the later definition replaces the earlier one".toList]
  | reported _ _ notes => notes
  | _ => []

end Problem

/-- A problem and the line it speaks about, counted from one. -/
structure Diagnostic where
  problem : Problem
  line : Nat
  deriving DecidableEq, Repr

namespace Diagnostic

/-- How much the problem weighs. -/
def severity (d : Diagnostic) : Severity := d.problem.severity

/-- What is said about the problem. -/
def message (d : Diagnostic) : Text := d.problem.message

/-- The advice that goes with the problem. -/
def notes (d : Diagnostic) : List Text := d.problem.notes

/-- Whether the problem is a warning only. -/
def isWarning (d : Diagnostic) : Bool := d.severity == .warning

/-- The diagnostic in one line. -/
def display (d : Diagnostic) : Text :=
  "line ".toList ++ Text.ofNat d.line ++ ": ".toList ++ d.message

/-- The bytes of the stored text that the diagnostic points at: its whole
line, or nothing when the text has no such line. -/
def label? (d : Diagnostic) (source : Text) : Option (Nat × Nat) :=
  Text.lineBytes? source d.line

end Diagnostic

end RequestBook
