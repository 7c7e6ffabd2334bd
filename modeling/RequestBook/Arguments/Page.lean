import RequestBook.Arguments

/-!
# Usage pages

The page of a command says what it does, how it is called and what it can be
told, each list in two columns of which the first is as wide as its widest
entry.
-/

namespace RequestBook.Usage

/-- Entries in two columns. -/
def columns (entries : List (Text × Text)) : Text :=
  let width := entries.foldl (fun width entry => max width entry.1.length) 0
  entries.flatMap fun (name, about) =>
    [' ', ' '] ++ name ++ List.replicate (width - name.length + 2) ' ' ++ about ++ ['\n']

/-- A list under its title, or nothing without entries. -/
def part (title : Text) (entries : List (Text × Text)) : Text :=
  if entries.isEmpty then [] else ['\n'] ++ title ++ [':', '\n'] ++ columns entries

/-- How the command is called. -/
def line (usage : Usage) : Text :=
  let options := if usage.switches.isEmpty then [] else " [OPTIONS]".toList
  let subcommand := if usage.subcommands.isEmpty then [] else " <COMMAND>".toList
  "Usage: ".toList ++ usage.command ++ options
    ++ usage.slots.flatMap (fun slot => [' '] ++ slot.label) ++ subcommand

/-- A switch as its page names it, its letter first. -/
def switchEntry (s : Switch) : Text × Text :=
  let letter := s.letter.elim [' ', ' ', ' ', ' '] fun letter => ['-', letter, ',', ' ']
  (letter ++ s.label, s.about)

/-- The page of the command. -/
def page (usage : Usage) : Text :=
  usage.about ++ "\n\n".toList ++ usage.line ++ ['\n']
    ++ part "Commands".toList usage.subcommands
    ++ part "Arguments".toList (usage.slots.map fun slot => (slot.label, slot.about))
    ++ part "Options".toList (usage.switches.map switchEntry)

end RequestBook.Usage
