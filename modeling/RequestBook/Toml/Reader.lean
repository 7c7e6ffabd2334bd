import RequestBook.Toml.Scalar
import RequestBook.Toml.Table

/-!
# Reading TOML

A document is a sequence of lines: keys with values, headers, and comments.
Arrays may run over lines and hold comments, tables in braces may not. Every
step takes a character, so fuel for each character, and a little more,
outlasts the text.
-/

namespace RequestBook

namespace Toml

/-- How many brackets a value may be deep. -/
def deepest : Nat := 79

/-- The text after blanks and a comment, up to the end of its line. -/
def skipComment (t : Text) : Text :=
  match skipSpace t with
  | '#' :: rest => rest.dropWhile isLineChar
  | rest => rest

/-- The text after blanks, comments and ends of line. -/
def skipFiller : Nat → Text → Text
  | 0, t => t
  | fuel + 1, t =>
    let t := skipComment t
    match afterLineEnd? t with
    | some rest => skipFiller fuel rest
    | none => t

/-- The text after what may end a line: blanks, a comment, and the line end
unless the text is over. -/
def lineEnd (t : Text) : Except Fault Text :=
  match skipComment t with
  | [] => .ok []
  | rest =>
    match afterLineEnd? rest with
    | some rest => .ok rest
    | none => .error .malformed

mutual

/-- A value, from its first character on. -/
def value (room : Nat) : Nat → Text → Except Fault (Scanned Toml)
  | 0, _ => .error .malformed
  | _ + 1, [] => .error .malformed
  | fuel + 1, c :: rest =>
    if c = '"' || c = '\'' then
      (anyString (c :: rest)).map fun (s, rest) => (.string s, rest)
    else if c = '[' then
      match room with
      | 0 => .error .tooDeep
      | room + 1 => do
        let (items, rest) ← items room fuel rest
        .ok (.array items, rest)
    else if c = '\x7b' then
      match room with
      | 0 => .error .tooDeep
      | room + 1 =>
        match skipSpace rest with
        | '\x7d' :: rest => .ok (.table [], rest)
        | rest => do
          let (entries, rest) ← members room fuel [] rest
          .ok (.table (entriesToml entries), rest)
    else
      match Text.after? "true".toList (c :: rest), Text.after? "false".toList (c :: rest) with
      | some rest, _ => .ok (.boolean true, rest)
      | _, some rest => .ok (.boolean false, rest)
      | none, none => number? (c :: rest)

/-- The items of an array and its closing bracket. A comma may trail. -/
def items (room : Nat) : Nat → Text → Except Fault (Scanned (List Toml))
  | 0, _ => .error .malformed
  | fuel + 1, t =>
    match skipFiller (t.length + 1) t with
    | ']' :: rest => .ok ([], rest)
    | rest => do
      let (item, rest) ← value room fuel rest
      match skipFiller (rest.length + 1) rest with
      | ',' :: rest =>
        let (others, rest) ← items room fuel rest
        .ok (item :: others, rest)
      | ']' :: rest => .ok ([item], rest)
      | _ => .error .malformed

/-- The keys and values of a table in braces, at least one, and the closing
brace, after those that have been read. -/
def members (room : Nat) : Nat → Entries → Text → Except Fault (Scanned Entries)
  | 0, _, _ => .error .malformed
  | fuel + 1, done, t => do
    let ((path, key), rest) ← dottedKey deepestKey t
    let rest ← mark '=' (skipSpace rest)
    let (item, rest) ← value room fuel (skipSpace rest)
    let done ← putValue path key item .header done
    match skipSpace rest with
    | ',' :: rest => members room fuel done rest
    | '\x7d' :: rest => .ok (done, rest)
    | _ => .error .malformed

end

/-- A document as far as it has been read: all tables, and the path of the
one that keys go to. -/
structure Draft where
  root : Entries := []
  current : List Text := []

/-- A header line, from its first bracket on. -/
def headerLine (draft : Draft) (t : Text) : Except Fault (Draft × Text) :=
  match Text.after? ['[', '['] t with
  | some rest => do
    let ((path, key), rest) ← dottedKey deepestKey rest
    let rest ← mark ']' (← mark ']' rest)
    let root ← openElement path key draft.root
    .ok ({ root, current := path ++ [key] }, ← lineEnd rest)
  | none => do
    let ((path, key), rest) ← dottedKey deepestKey (t.drop 1)
    let rest ← mark ']' rest
    let root ← openTable path key draft.root
    .ok ({ root, current := path ++ [key] }, ← lineEnd rest)

/-- A line with a key and a value. -/
def keyLine (draft : Draft) (t : Text) : Except Fault (Draft × Text) := do
  let ((path, key), rest) ← dottedKey deepestKey t
  let t ← mark '=' (skipSpace rest)
  let t := skipSpace t
  let (item, rest) ← value deepest (2 * t.length + 2) t
  let root ← descend .headerStep (putValue path key item) draft.current .header draft.root
  .ok ({ draft with root }, ← lineEnd rest)

/-- The lines of a document after those that have been read. -/
def lines : Nat → Draft → Text → Except Fault Draft
  | 0, draft, _ => .ok draft
  | fuel + 1, draft, t =>
    match skipSpace t with
    | [] => .ok draft
    | '[' :: rest => do
      let (draft, rest) ← headerLine draft ('[' :: rest)
      lines fuel draft rest
    | c :: rest =>
      if c = '#' || c = '\n' || c = '\r' then do
        let rest ← lineEnd (c :: rest)
        lines fuel draft rest
      else do
        let (draft, rest) ← keyLine draft (c :: rest)
        lines fuel draft rest

/-- The table that a document holds. A byte order mark at its head does not
count. -/
def read (t : Text) : Except Fault Toml := do
  let t := match t with
    | c :: rest => if c.toNat = 0xFEFF then rest else c :: rest
    | [] => []
  let draft ← lines (t.length + 1) {} t
  .ok (.table (entriesToml draft.root))

end Toml

end RequestBook
