import RequestBook.Text
import RequestBook.Text.HiddenTable

/-!
# A text between quotes

How a text is shown where its exact characters matter: in a report of what
was expected and what was found. What a reader could not see, or could not
tell from its neighbour, is written by its number.
-/

namespace RequestBook.Text

/-- Whether a character shows by itself: it is neither hidden nor a mark that
joins the character before it. -/
def showsAlone (c : Char) : Bool :=
  !inRanges hiddenRanges c.toNat && !inRanges joiningRanges c.toNat

/-- One character of a quoted text. -/
def quotedChar (c : Char) : Text :=
  if c = '"' || c = '\\' then ['\\', c]
  else if c = '\n' then ['\\', 'n']
  else if c = '\r' then ['\\', 'r']
  else if c = '\t' then ['\\', 't']
  else if c.toNat = 0 then ['\\', '0']
  else if showsAlone c then [c]
  else ['\\', 'u', '\x7b'] ++ ofNatHex c.toNat ++ ['\x7d']

/-- The text between double quotes. -/
def quoted (t : Text) : Text := ['"'] ++ t.flatMap quotedChar ++ ['"']

end RequestBook.Text
