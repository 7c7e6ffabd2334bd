import RequestBook.Grammar
import RequestBook.Path
import RequestBook.Request
import RequestBook.Text.Case

/-!
# File formats

Which grammar reads a file is told by the extension of its name. Extensions
are compared in small letters.
-/

namespace RequestBook

/-- Grammars by extension. -/
structure Formats where
  entries : List (Text × Grammar)

namespace Formats

/-- No format. -/
def empty : Formats := ⟨[]⟩

/-- The formats with one more, in the place of an earlier one of its
extension. -/
def insert (formats : Formats) (extension : Text) (grammar : Grammar) : Formats :=
  ⟨putEntry (Text.lower extension) grammar formats.entries⟩

/-- The format of request books. -/
def standard : Formats := empty.insert "md".toList .standard

/-- The extensions in order. -/
def extensions (formats : Formats) : List Text :=
  (formats.entries.map Prod.fst).mergeSort Text.le

/-- The grammar for the file that a path leads to. -/
def grammarFor (formats : Formats) (path : Text) : Except RequestError Grammar :=
  let extension := Text.lower (Path.extension path)
  match formats.entries.lookup extension with
  | some grammar => .ok grammar
  | none => .error (.unsupportedFormat extension)

end Formats

end RequestBook
