import RequestBook.Engine
import RequestBook.FileTree
import RequestBook.Json.Reader
import RequestBook.Toml.Reader

/-!
# Environments

An environment is a named set of variables, kept with others in one file of
tables. The table `shared` stands under every other: its variables hold
where the other table has none of their name. A value is a scalar and is
known by its text.

The file is the one that is asked for, or else the one with the usual name
beside the document, if it is there.
-/

namespace RequestBook

/-- Why the variables of an environment cannot be had. -/
inductive EnvironmentError where
  | unreadable (path : Text) (fault : FileFault)
  | unsupported (extension : Text)
  | badJson (path : Text) (fault : Json.Fault)
  | badToml (path : Text) (fault : Toml.Fault)
  | unknown (name : Text) (available : List Text)
  deriving DecidableEq, Repr

namespace EnvironmentError

/-- The error in words, its cause left out. -/
def message : EnvironmentError → Text
  | unreadable path _ => "cannot read environment file '".toList ++ path ++ ['\'']
  | unsupported extension =>
    "unsupported environment file type '".toList ++ extension ++ ['\'']
  | badJson path _ => "invalid JSON in '".toList ++ path ++ ['\'']
  | badToml path _ => "invalid TOML in '".toList ++ path ++ ['\'']
  | unknown name available =>
    "environment '".toList ++ name ++ "' not found (available: ".toList
      ++ Text.join ", ".toList available ++ [')']

/-- What the error comes from, if it comes from another. -/
def cause? : EnvironmentError → Option Text
  | unreadable _ fault => some fault.message
  | badJson _ fault => some fault.message
  | badToml _ fault => some fault.message
  | _ => none

/-- The error in words and its cause after it. -/
def display (e : EnvironmentError) : Text :=
  e.message ++ (e.cause?.elim [] fun cause => ": ".toList ++ cause)

end EnvironmentError

namespace Variables

/-- A variable from an argument, its name before the first equals sign and
its value after it. The name must not be blank, and no blank at its ends
counts. -/
def readSetting? (argument : Text) : Option (Text × Text) :=
  match Text.cut? ['='] argument with
  | none => none
  | some (name, value) =>
    let name := Text.trim name
    if name.isEmpty then none else some (name, value)

/-- What is said of an argument that sets no variable. -/
def settingFault (argument : Text) : Text :=
  "expected key=value, got '".toList ++ argument ++ ['\'']

end Variables

/-! ## Scalars -/

/-- The text of a JSON value that is a scalar. A whole number beyond 64 bits
with a sign is known in binary only. -/
def scalarOfJson : Json → Except Json.Fault Text
  | .string value => .ok value
  | .integer value =>
    if FitsWord value then .ok (Text.ofInt value)
    else .ok (Binary64.ofNat value.toNat).plainText
  | .number value => .ok value.plainText
  | .bool value => .ok (if value then "true".toList else "false".toList)
  | _ => .error (.wrongType "a scalar")

/-- The text of a TOML value that is a scalar. -/
def scalarOfToml : Toml → Except Toml.Fault Text
  | .string value => .ok value
  | .integer value => .ok (Text.ofInt value)
  | .float value => .ok value.plainText
  | .boolean value => .ok (if value then "true".toList else "false".toList)
  | _ => .error (.wrongType "a scalar")

/-! ## Tables -/

/-- Named sets of variables, in the order of their names. -/
structure Environments where
  tables : List (Text × Variables)
  deriving DecidableEq, Repr

namespace Environments

/-- The table that stands under every other. -/
def shared : Text := "shared".toList

/-- The environments of tables that come in any order. Of two tables with one
name, and of two variables with one name, the last counts. -/
def ofTables (tables : List (Text × List (Text × Text))) : Environments :=
  let named := tables.foldl (fun named (name, values) =>
    putEntry name (Variables.setAll [] values) named) []
  ⟨named.mergeSort fun a b => Text.le a.1 b.1⟩

/-- The environments in a JSON text. -/
def ofJsonText (t : Text) : Except Json.Fault Environments := do
  let tables ← (← (← Json.read t).asMembers).mapM fun (name, table) => do
    let values ← (← table.asMembers).mapM fun (key, value) => do
      let text ← scalarOfJson value
      return (key, text)
    return (name, values)
  return ofTables tables

/-- The environments in a TOML text. -/
def ofTomlText (t : Text) : Except Toml.Fault Environments := do
  let tables ← (← (← Toml.read t).asEntries).mapM fun (name, table) => do
    let values ← (← table.asEntries).mapM fun (key, value) => do
      let text ← scalarOfToml value
      return (key, text)
    return (name, values)
  return ofTables tables

/-- The environments in the file that a path leads to. -/
def load (tree : FileTree) (path : Text) : Except EnvironmentError Environments := do
  let text ← (tree.readText path).mapError (.unreadable path)
  let extension := Text.lower (Path.extension path)
  if extension = "json".toList then (ofJsonText text).mapError (.badJson path)
  else if extension = "toml".toList then (ofTomlText text).mapError (.badToml path)
  else throw (.unsupported extension)

/-- The names of the environments; `shared` is none. -/
def names (environments : Environments) : List Text :=
  (environments.tables.map Prod.fst).filter fun name => name != shared

/-- The variables of an environment over those that are shared. -/
def variablesOf (environments : Environments) (name : Text) :
    Except EnvironmentError Variables :=
  match environments.tables.lookup name with
  | none => .error (.unknown name environments.names)
  | some own =>
    .ok (Variables.setAll ((environments.tables.lookup shared).getD []) own)

/-- The usual name of an environment file. -/
def usualName : Text := "toys.env.toml".toList

/-- The usual place of the environment file of a document. -/
def usualPath (document : Text) : Text :=
  Path.inFolder ((Path.parent? document).getD ['.']) usualName

/-- The path to the environment file: the one that is asked for, or the usual
one if it leads to a file. -/
def path? (tree : FileTree) (document : Text) (wanted : Option Text) : Option Text :=
  match wanted with
  | some path => some path
  | none =>
    let path := usualPath document
    if tree.isFile path then some path else none

end Environments

end RequestBook
