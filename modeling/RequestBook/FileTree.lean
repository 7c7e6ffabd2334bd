import RequestBook.Fields
import RequestBook.Path

/-!
# Trees of files

What a command reads from is a tree: a folder holds files and folders by
name, a file holds bytes. A path is followed from the root of the tree, and
every place on its way has to be a folder. What can go wrong on the way is
said in the words of the system.
-/

namespace RequestBook

/-- A file, or a folder with what is in it. -/
inductive FileTree where
  | file (content : ByteArray)
  | folder (entries : List (Text × FileTree))

/-- Why a file cannot be read. -/
inductive FileFault where
  | notFound
  | notFolder
  | isFolder
  | notText
  deriving DecidableEq, Repr

/-- The fault in words. -/
def FileFault.message : FileFault → Text
  | notFound => "No such file or directory (os error 2)".toList
  | notFolder => "Not a directory (os error 20)".toList
  | isFolder => "Is a directory (os error 21)".toList
  | notText => "stream did not contain valid UTF-8".toList

namespace FileTree

/-- A folder with nothing in it. -/
def empty : FileTree := folder []

/-- What is in a folder; nothing is in a file. -/
def entries : FileTree → List (Text × FileTree)
  | file _ => []
  | folder entries => entries

/-! ## Building -/

/-- The tree with what stands at a place changed. Folders are made on the
way where there are none. -/
def edit (change : FileTree → FileTree) : List Text → FileTree → FileTree
  | [], tree => change tree
  | name :: rest, tree =>
    let below := (tree.entries.lookup name).getD empty
    folder (putEntry name (edit change rest below) tree.entries)

/-- The tree with a file at a place. -/
def insertFile (place : List Text) (content : ByteArray) : FileTree → FileTree :=
  edit (fun _ => file content) place

/-- The tree with a folder at a place; what is in it stays. -/
def insertFolder (place : List Text) : FileTree → FileTree :=
  edit (fun tree => folder tree.entries) place

/-! ## Looking up -/

/-- What stands at a place. -/
def get? : FileTree → List Text → Option FileTree
  | tree, [] => some tree
  | file _, _ :: _ => none
  | folder entries, name :: rest =>
    match entries.lookup name with
    | none => none
    | some below => below.get? rest

/-- Passes over a place on the way, which has to be a folder. -/
def pass (tree : FileTree) (place : List Text) : Except FileFault Unit :=
  match tree.get? place with
  | none => .error .notFound
  | some (file _) => .error .notFolder
  | some (folder _) => .ok ()

/-- What a path leads to. -/
def find (tree : FileTree) (path : Text) : Except FileFault FileTree := do
  if path.isEmpty then throw .notFound
  let places := Path.places path
  places.dropLast.forM tree.pass
  if Path.asksForFolder path then
    (places.getLast?).forM tree.pass
  match places.getLast?.bind tree.get? with
  | none => throw .notFound
  | some found => return found

/-- Whether a path leads to a file. -/
def isFile (tree : FileTree) (path : Text) : Bool :=
  match tree.find path with
  | .ok (file _) => true
  | _ => false

/-- The characters that bytes stand for. -/
def textOf (content : ByteArray) : Except FileFault Text :=
  match String.fromUTF8? content with
  | some text => .ok text.toList
  | none => .error .notText

/-- The text of the file that a path leads to. -/
def readText (tree : FileTree) (path : Text) : Except FileFault Text := do
  match ← tree.find path with
  | file content => textOf content
  | folder _ => throw .isFolder

/-! ## Walking -/

mutual

/-- All files, each with the steps that lead to it. -/
def files : FileTree → List (List Text × ByteArray)
  | file content => [([], content)]
  | folder entries => filesIn entries

/-- All files in the entries of a folder. -/
def filesIn : List (Text × FileTree) → List (List Text × ByteArray)
  | [] => []
  | (name, tree) :: rest =>
    (files tree).map (fun (steps, content) => (name :: steps, content)) ++ filesIn rest

end

end FileTree

end RequestBook
