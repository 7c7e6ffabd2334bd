import RequestBook.Block
import RequestBook.Diagnostic

/-!
# Outlines

Blocks come one after the other and are hung below headings as they come: a
heading below the latest heading one level up, any other block below the
latest heading of all. A table with the latest heading of each level is
enough to find them, and nothing in it is ever cleared. It is as long as the
deepest level asks for, and no machine can make it longer than it has room for:
a heading deeper than that cannot be hung.

Blocks are numbered as they come, so the number of a block is found by
halving; `position?` does that, and both hanging a block and looking one up
go through it.
-/

namespace RequestBook

/-! ## Finding a block by its number -/

/-- Where the block with the number stands between two positions, in a list
whose numbers increase. -/
def positionBetween (blocks : List Block) (id low high : Nat) : Option Nat :=
  if low < high then
    let middle := (low + high) / 2
    match blocks[middle]? with
    | none => none
    | some block =>
      if block.id = id then some middle
      else if block.id < id then positionBetween blocks id (middle + 1) high
      else positionBetween blocks id low middle
  else none
termination_by high - low

/-- Where the block with the number stands. -/
def position? (blocks : List Block) (id : Nat) : Option Nat :=
  positionBetween blocks id 0 blocks.length

/-! ## The latest headings -/

/-- A heading as the table remembers it. -/
structure HeadingMark where
  id : Nat
  order : Nat
  deriving DecidableEq, Repr

/-- The latest heading of each level and the latest of all. -/
structure Headings where
  byLevel : List (Option HeadingMark) := []
  latest : Option Nat := none
  deriving DecidableEq, Repr

namespace Headings

/-- The most levels that the table can be made for: an entry takes up 24 bytes,
and nothing takes up 2^63 of them. Where memory is short there is room for fewer. -/
def mostLevels : Nat := 0x7FFFFFFFFFFFFFFF / 24

/-- The latest heading of a level. -/
def at? (table : Headings) (level : Nat) : Option HeadingMark :=
  (table.byLevel[level]?).join

/-- The table after a heading of a level has come, made longer if it has to be. -/
def record (table : Headings) (level : Nat) (mark : HeadingMark) : Headings :=
  let missing := List.replicate (level + 1 - table.byLevel.length) none
  { byLevel := (table.byLevel ++ missing).set level (some mark)
    latest := some mark.id }

end Headings

/-- A block that has been given its order number, the parent the table names
for it, and the table after it. -/
def place (table : Headings) (block : Block) : Block × Option Nat × Headings :=
  match block.kind with
  | .heading level _ =>
    let order := (table.at? level).elim 1 (·.order)
    let parent := if level > 1 then (table.at? (level - 1)).map (·.id) else none
    ({ block with kind := .heading level order }, parent,
      table.record level ⟨block.id, order⟩)
  | _ => (block, table.latest, table)

/-- The blocks after one more has come, hung below its parent when that is
among them. -/
def hang (blocks : List Block) (block : Block) (parent : Option Nat) : List Block :=
  match parent.bind fun id => (position? blocks id).map fun index => (id, index) with
  | none => blocks ++ [block]
  | some (id, index) =>
    blocks.modify index (fun above =>
      { above with children := above.children ++ [block.id] })
      ++ [{ block with parent := some id }]

/-- Blocks hung so far, with the table of headings. -/
structure Hanging where
  blocks : List Block := []
  table : Headings := {}
  deriving DecidableEq, Repr

/-- One more block. -/
def Hanging.add (state : Hanging) (block : Block) : Hanging :=
  let (placed, parent, table) := place state.table block
  { blocks := hang state.blocks placed parent, table }

/-- Whether the table has a place for the block when there is room for that many
levels. Only a heading needs one. -/
def Block.isWithin (room : Nat) (block : Block) : Bool := block.kind.level?.all (· < room)

/-- One more block, if there is room for its level. -/
def Hanging.add? (room : Nat) (state : Hanging) (block : Block) : Option Hanging :=
  if block.isWithin room then some (state.add block) else none

/-- A list of blocks, hung below each other in the order in which they came. -/
def linked (blocks : List Block) : List Block :=
  (blocks.foldl Hanging.add {}).blocks

/-! ## Documents -/

/-- A document: its blocks in order, and the problems met on the way. -/
structure Outline where
  blocks : List Block
  diagnostics : List Diagnostic
  deriving DecidableEq, Repr

namespace Outline

/-- The block with a number. -/
def get? (outline : Outline) (id : Nat) : Option Block :=
  (position? outline.blocks id).bind fun index => outline.blocks[index]?

/-- The blocks that hang below none. -/
def roots (outline : Outline) : List Block :=
  outline.blocks.filter fun block => block.parent.isNone

/-- The blocks that hang below one, in order. -/
def children (outline : Outline) (block : Block) : List Block :=
  block.children.filterMap outline.get?

end Outline

end RequestBook
