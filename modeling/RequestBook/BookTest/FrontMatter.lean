import RequestBook.Text

/-!
# Front matter

A test file begins with lines between two lines of dashes, which say what to
expect of the document after them. Line ends may be of either kind, and byte
order marks at the head of the file do not count.
-/

namespace RequestBook

/-- Why a file has no front matter. -/
inductive FrontMatterFault where
  | noOpening
  | noClosing
  deriving DecidableEq, Repr

/-- The fault in words. -/
def FrontMatterFault.message : FrontMatterFault → Text
  | noOpening => "missing opening --- front matter delimiter".toList
  | noClosing => "missing closing --- front matter delimiter".toList

namespace FrontMatter

/-- The dashes before and after the front matter. -/
def delimiter : Text := ['-', '-', '-']

/-- The text after the line end that it begins with, if it begins with one. -/
def skipLineEnd : Text → Text
  | '\r' :: '\n' :: rest => rest
  | '\n' :: rest => rest
  | t => t

/-- The text without the carriage returns at its end. -/
def trimReturns (t : Text) : Text := (t.reverse.dropWhile (· = '\r')).reverse

/-- The front matter of a file and the document after it. -/
def split (content : Text) : Except FrontMatterFault (Text × Text) :=
  match Text.after? delimiter (content.dropWhile (·.toNat = 0xFEFF)) with
  | none => .error .noOpening
  | some rest =>
    match Text.cut? ('\n' :: delimiter) (skipLineEnd rest) with
    | none => .error .noClosing
    | some (front, document) => .ok (trimReturns front, skipLineEnd document)

end FrontMatter

end RequestBook
