import RequestBook.Text

/-!
# Blocks

A document is a sequence of blocks: headings, quotes, fenced code and
paragraphs. A block knows the lines it was built from and its place among
the headings. It names its parent and its children by number and holds
neither, so a block is a plain value.
-/

namespace RequestBook

/-- What a block is. -/
inductive Block.Kind where
  /-- A line of number signs and a title. Headings of one level share one
  order number unless a construct says otherwise. -/
  | heading (level order : Nat)
  | quote
  /-- Lines between two fences, with the word after the opening one. -/
  | fence (lang : Text)
  | paragraph
  deriving DecidableEq, Repr

/-- One block of a document. -/
structure Block where
  id : Nat
  kind : Block.Kind
  /-- The text of the block: markers removed, lines joined. -/
  content : Text
  /-- The lines it was built from, counted from one. -/
  lines : List Nat
  parent : Option Nat := none
  children : List Nat := []
  deriving DecidableEq, Repr

/-- The mark of a heading line. -/
def headingMark : Char := '#'

/-- The mark of a quoted line. -/
def quoteMark : Char := '>'

/-- The mark that opens and closes fenced code. -/
def fenceMark : Text := ['\x60', '\x60', '\x60']

namespace Block.Kind

/-- The level of a heading. -/
def level? : Kind → Option Nat
  | heading level _ => some level
  | _ => none

/-- The kind in a word, as the dump of a document shows it. -/
def label : Kind → Text
  | heading level _ => "heading(h".toList ++ Text.ofNat level ++ [')']
  | quote => "blockquote".toList
  | fence [] => "code".toList
  | fence lang => "code(".toList ++ lang ++ [')']
  | paragraph => "paragraph".toList

end Block.Kind

namespace Block

/-- Whether the block is a heading. -/
def isHeading (b : Block) : Bool := b.kind.level?.isSome

/-- Whether the block is a heading of exactly this level. -/
def isHeadingAt (level : Nat) (b : Block) : Bool := b.kind.level? == some level

/-- Whether some block has this one as its parent. -/
def hasChildren (b : Block) : Bool := !b.children.isEmpty

/-- The first line of the block, or zero for a block of no lines. -/
def firstLine (b : Block) : Nat := b.lines.headD 0

/-- The block written out again, with a line feed after each line. -/
def written (b : Block) : Text :=
  match b.kind with
  | .heading level _ =>
    List.replicate level headingMark ++ [' '] ++ b.content ++ ['\n']
  | .quote => [quoteMark, ' '] ++ b.content ++ ['\n']
  | .fence lang =>
    let body := if b.content.isEmpty then [] else b.content ++ ['\n']
    fenceMark ++ lang ++ ['\n'] ++ body ++ fenceMark ++ ['\n']
  | .paragraph => b.content ++ ['\n']

end Block

end RequestBook
