import RequestBook.Outline

/-!
# The dump of an outline

One line for each block, the blocks below it on the lines that follow, two
blanks deeper. The way down goes from number to number and the type of an
outline does not say that it ends, so it is cut off at the number of blocks;
no block of a document that was read lies that deep.
-/

namespace RequestBook

/-- How much of a block's text its line shows. -/
def dumpWidth : Nat := 60

/-- The line of one block: its number, its kind, its lines and the beginning
of its text. -/
def Block.dumpLine (depth : Nat) (b : Block) : Text :=
  List.replicate (2 * depth) ' ' ++ ['['] ++ Text.ofNat b.id ++ "] ".toList
    ++ b.kind.label ++ " [".toList ++ Text.join ", ".toList (b.lines.map Text.ofNat)
    ++ "] ".toList ++ ((Text.lines b.content).headD []).take dumpWidth

namespace Outline

/-- The lines of a block and all below it, down to a depth. -/
def dumpFrom (outline : Outline) : (room depth : Nat) → Block → List Text
  | 0, _, _ => []
  | room + 1, depth, block =>
    block.dumpLine depth
      :: (outline.children block).flatMap (dumpFrom outline room (depth + 1))

/-- The lines of all blocks. -/
def dump (outline : Outline) : List Text :=
  outline.roots.flatMap (outline.dumpFrom outline.blocks.length 0)

end Outline

end RequestBook
