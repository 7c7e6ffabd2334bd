import RequestBook.Text

/-!
# Lines of a document

A document may end its lines with a line feed, a carriage return, or both in
that order, and may mix the three. An end of line ends a line and starts
none: a text that closes with one has no empty line after it. A byte order
mark at the head belongs to no line.

A label in a diagnostic counts differently. It points into the text as it is
stored, cut after each line feed and nowhere else, in bytes of UTF-8.
-/

namespace RequestBook.Text

/-- The mark that may stand at the head of a stored text. -/
def byteOrderMark : Char := Char.ofNat 0xFEFF

/-- The text without one byte order mark at its head. -/
def withoutMark : Text → Text
  | [] => []
  | c :: t => if c = byteOrderMark then t else c :: t

/-- The lines of a text, given the characters of the line under way, last
first. -/
def splitLines (line : Text) : Text → List Text
  | [] => if line.isEmpty then [] else [line.reverse]
  | '\r' :: '\n' :: rest => line.reverse :: splitLines [] rest
  | c :: rest =>
    if c = '\n' || c = '\r' then line.reverse :: splitLines [] rest
    else splitLines (c :: line) rest

/-- The lines of a document. -/
def documentLines (t : Text) : List Text := splitLines [] (withoutMark t)

/-! ## Bytes -/

/-- How many bytes UTF-8 takes for a text. -/
def byteLength (t : Text) : Nat := t.foldl (fun n c => n + c.utf8Size) 0

/-- The pieces of a text cut after each line feed, which stays with its
piece. The last piece has none and may be empty. -/
def storedLines : Text → List Text
  | [] => [[]]
  | c :: t =>
    match storedLines t with
    | [] => [[c]]
    | piece :: pieces =>
      if c = '\n' then [c] :: piece :: pieces else (c :: piece) :: pieces

/-- The bytes from where a stored line starts to where the next one does, for
a line counted from one. -/
def lineBytes? (t : Text) (line : Nat) : Option (Nat × Nat) :=
  let pieces := storedLines t
  match line with
  | 0 => none
  | index + 1 =>
    match pieces[index]? with
    | none => none
    | some piece =>
      let start := byteLength (pieces.take index).flatten
      some (start, start + byteLength piece)

end RequestBook.Text
