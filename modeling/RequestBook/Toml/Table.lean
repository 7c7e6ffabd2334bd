import RequestBook.Fields
import RequestBook.Toml

/-!
# Building tables

A document names a table in three ways: by a header, as a step on the way of
a longer header, and as a step of a dotted key. A table may be opened by a
header once, also when it is there already as a step of another header. A
dotted key adds only to tables that dotted keys have made, and only under
the header under which they were made. A header in double brackets opens one
more table of a list, and whoever steps through the list means its last.
-/

namespace RequestBook

namespace Toml

/-- How a table came to be. -/
inductive Origin where
  | header
  | headerStep
  | dottedKey
  deriving DecidableEq, Repr

/-- What stands under a key of a document that is being read. -/
inductive Node where
  | value (v : Toml)
  | table (origin : Origin) (entries : List (Text × Node))
  | tables (elements : List (List (Text × Node)))

/-- What stands under the keys of one table. -/
abbrev Entries := List (Text × Node)

/-- Goes down a path, making tables of the given origin where there are none,
and edits the entries at its end. Steps of a dotted key may not go through a
table that a header has opened. -/
def descend (made : Origin) (edit : Origin → Entries → Except Fault Entries) :
    List Text → Origin → Entries → Except Fault Entries
  | [], origin, entries => edit origin entries
  | key :: path, _, entries =>
    match entries.lookup key with
    | none => do
      let inner ← descend made edit path made []
      .ok (putEntry key (.table made inner) entries)
    | some (.value _) => .error (.repeatedKey key)
    | some (.table origin inner) =>
      if made = .dottedKey ∧ origin = .header then .error (.repeatedKey key)
      else do
        let inner ← descend made edit path origin inner
        .ok (putEntry key (.table origin inner) entries)
    | some (.tables elements) =>
      match elements.getLast? with
      | none => .error (.repeatedKey key)
      | some last => do
        let inner ← descend made edit path .header last
        .ok (putEntry key (.tables (elements.dropLast ++ [inner])) entries)

/-- Writes a value under a dotted key of a table. -/
def putValue (path : List Text) (key : Text) (v : Toml) (origin : Origin)
    (entries : Entries) : Except Fault Entries :=
  let write (origin : Origin) (entries : Entries) : Except Fault Entries :=
    if !path.isEmpty && origin ≠ .dottedKey then .error (.repeatedKey key)
    else
      match entries.lookup key with
      | some _ => .error (.repeatedKey key)
      | none => .ok (entries ++ [(key, .value v)])
  descend .dottedKey write path origin entries

/-- Opens the table of a header. -/
def openTable (path : List Text) (key : Text) (root : Entries) : Except Fault Entries :=
  let write (_ : Origin) (entries : Entries) : Except Fault Entries :=
    match entries.lookup key with
    | none => .ok (entries ++ [(key, .table .header [])])
    | some (.table .headerStep inner) => .ok (putEntry key (.table .header inner) entries)
    | some _ => .error (.repeatedKey key)
  descend .headerStep write path .header root

/-- Opens one more table of the list of a header in double brackets. -/
def openElement (path : List Text) (key : Text) (root : Entries) : Except Fault Entries :=
  let write (_ : Origin) (entries : Entries) : Except Fault Entries :=
    match entries.lookup key with
    | none => .ok (entries ++ [(key, .tables [[]])])
    | some (.tables elements) => .ok (putEntry key (.tables (elements ++ [[]])) entries)
    | some _ => .error (.repeatedKey key)
  descend .headerStep write path .header root

mutual

/-- The value of what stands under a key. -/
def Node.toml : Node → Toml
  | .value v => v
  | .table _ entries => .table (entriesToml entries)
  | .tables elements => .array (elementsToml elements)

/-- The values of all that stands in a table. -/
def entriesToml : List (Text × Node) → List (Text × Toml)
  | [] => []
  | (key, node) :: rest => (key, node.toml) :: entriesToml rest

/-- The tables of a list. -/
def elementsToml : List (List (Text × Node)) → List Toml
  | [] => []
  | entries :: rest => .table (entriesToml entries) :: elementsToml rest

end

end Toml

end RequestBook
