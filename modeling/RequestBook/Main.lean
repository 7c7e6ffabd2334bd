import RequestBook.CommandLine
import Std.Time.Zoned

/-!
# The program

Looks at what a command asks to see, the files, the time and a seed, and
hands it to the command line. Only here is anything read or printed.
-/

namespace RequestBook

/-- How many folders below each other are looked into. -/
def deepestFolder : Nat := 128

/-- What a path leads to. In a folder only test files are read, and nothing
is looked at below `depth` folders. -/
def loadTree : (depth : Nat) → String → IO (Option FileTree)
  | 0, _ => return none
  | depth + 1, path => do
    try
      let path ← IO.FS.realPath path
      if ← path.isDir then
        let entries ← (← path.readDir).toList.filterMapM fun entry => do
          let name := entry.fileName.toList
          let isTest := Text.endsWith TestFile.ending name
          if isTest || (← entry.path.isDir) then
            return (← loadTree depth entry.path.toString).map fun tree => (name, tree)
          else return none
        return some (.folder entries)
      else return some (.file (← IO.FS.readBinFile path))
    catch _ => return none

/-- The tree with what a path leads to and the folders on its way. -/
def loadPath (depth : Nat) (tree : FileTree) (path : Text) : IO FileTree := do
  let steps := Path.steps path
  let counts := List.range (steps.length + 1)
  counts.foldlM (fun tree count => do
    let taken := steps.take count
    let passed := if count = 0 then ['.'] else taken.foldl Path.inFolder []
    let place := taken.foldl Path.follow []
    match ← loadTree (if count = steps.length then depth else 1) (String.ofList passed) with
    | none => return tree
    | some (.file content) => return tree.insertFile place content
    | some (.folder entries) =>
      return tree.edit (fun old => .folder (old.entries ++ entries)) place) tree

/-- The files that a command asks to see. -/
def loadFiles (command : Command) : IO FileTree := do
  match command with
  | .run options =>
    let environment := options.environmentFile.getD (Environments.usualPath options.file)
    loadPath 1 (← loadPath 1 .empty options.file) environment
  | .test options => loadPath deepestFolder .empty options.path

/-- The present moment. -/
def presentMoment : IO Timestamp := do
  let now ← Std.Time.PlainDateTime.now
  return {
    date := ⟨now.date.year.toInt, now.date.month.val.toNat, now.date.day.val.toNat⟩
    hour := now.time.hour.val.toNat
    minute := now.time.minute.val.toNat
    second := now.time.second.val.toNat
    nano := now.time.nanosecond.val.toNat }

/-- Random draws that nobody knows beforehand. -/
def freshDraws : IO Draws := do
  let bytes ← IO.getRandomBytes 16
  return .ofSeed (bytes.toList.foldl (fun seed byte => 256 * seed + byte.toNat) 0)

end RequestBook

open RequestBook in
/-- Answers its arguments. -/
def main (arguments : List String) : IO UInt32 := do
  let arguments := arguments.map String.toList
  let tree ← match Command.read arguments with
    | .ok invocation => loadFiles invocation.command
    | .error _ => pure FileTree.empty
  let report := CommandLine.report tree (← presentMoment) (← freshDraws) arguments
  IO.print (String.ofList report.out)
  IO.eprint (String.ofList report.err)
  return UInt32.ofNat report.code
