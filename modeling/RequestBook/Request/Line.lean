import RequestBook.Request
import RequestBook.Text.Case

/-!
# Request lines

`METHOD url [VERSION]`, parted by spaces. The url may itself hold spaces;
only its first word must look like a url of the web. A last word that names
the protocol is the version, in capitals.
-/

namespace RequestBook

/-- The three parts of a request line. -/
structure RequestLine where
  method : Text
  url : Text
  version : Text
  deriving DecidableEq, Repr

namespace RequestLine

/-- What a version begins with, in small letters. -/
def versionMark : Text := "http/".toList

/-- Whether a word names a version of the protocol. -/
def isVersion (word : Text) : Bool :=
  (word.take versionMark.length).map Text.lowerAscii == versionMark

/-- The words of a line: what stands between its spaces. -/
def words (line : Text) : List Text :=
  (Text.fields ' ' line).filter fun word => !word.isEmpty

/-- The url of several words. -/
def urlOf (words : List Text) : Text := Text.trim (Text.join [' '] words)

/-- The request line that a text holds, if it has two words and the second
looks like a url. -/
def read? (line : Text) : Option RequestLine :=
  match words line with
  | method :: url :: more =>
    if !Text.startsWith Request.webScheme url then none
    else
      match more.getLast? with
      | none => some ⟨method, url, defaultHttpVersion⟩
      | some last =>
        if isVersion last then some ⟨method, urlOf (url :: more.dropLast), Text.upper last⟩
        else some ⟨method, urlOf (url :: more), defaultHttpVersion⟩
  | _ => none

end RequestLine

end RequestBook
