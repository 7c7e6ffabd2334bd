import RequestBook.Block.Construct
import RequestBook.Outline

/-!
# Grammars

A grammar is a list of constructs in order of rank, and one more that takes
every line no other claims. Reading goes through the lines once. Blank lines
are passed over; at any other line the first construct that it begins is
asked to take lines, and reading goes on where it stopped, or one line
further when it claims to have stopped no later than it began.

That last rule is what makes reading end whatever the constructs do. What
each construct was asked and what it answered is kept as a list of `Turn`s,
and the document is made from that list.

A construct may answer a heading of any level, and the table of headings cannot
be made long enough for every level. `attempt` is the reading with room for some
levels: it hangs each block as it comes, and at a heading that is too deep it
breaks off, with no document. `read` is the reading that nothing breaks off.
Headings of the standard grammar are no deeper than their lines are long, so that
is how its documents are read.
-/

namespace RequestBook

/-- A list of constructs and the one for lines that none of them claims. -/
structure Grammar where
  constructs : List Construct
  fallback : Construct

/-- One construct's turn: where it began, the number it was given and what it
answered. -/
structure Turn where
  position : Nat
  id : Nat
  answer : Except Diagnostic Block

namespace Turn

/-- The block, if the turn made one. -/
def block? (turn : Turn) : Option Block := turn.answer.toOption

/-- The problem, if the turn met one. -/
def diagnostic? (turn : Turn) : Option Diagnostic :=
  match turn.answer with
  | .ok _ => none
  | .error diagnostic => some diagnostic

/-- What hangs when the turn is over, if there is room for its block. -/
def settle? (room : Nat) (state : Hanging) (turn : Turn) : Option Hanging :=
  match turn.answer with
  | .ok block => state.add? room block
  | .error _ => some state

end Turn

/-- A reading as it is carried out: the turns that were taken, and the blocks that
hang in the end unless it was broken off. -/
structure Attempt where
  turns : List Turn
  last : Option Hanging

namespace Attempt

/-- The reading with one more turn in front. -/
def behind (turn : Turn) (rest : Attempt) : Attempt :=
  { rest with turns := turn :: rest.turns }

/-- The document, unless the reading was broken off. -/
def outline? (attempt : Attempt) : Option Outline :=
  attempt.last.map fun state =>
    { blocks := state.blocks
      diagnostics := attempt.turns.filterMap Turn.diagnostic? }

end Attempt

namespace Grammar

/-- Headings, quotes and fenced code, and paragraphs for all the rest. -/
def standard : Grammar where
  constructs := [heading, quote, fence]
  fallback := paragraph

/-- The marks in use, by rank, that of the fallback left out. -/
def flags (grammar : Grammar) : List Text := grammar.constructs.map (·.flag)

/-- The grammar with one more construct of lowest rank, and whether it was
taken: a mark in use is refused. -/
def register (grammar : Grammar) (construct : Construct) : Grammar × Bool :=
  if construct.flag = grammar.fallback.flag || grammar.flags.contains construct.flag then
    (grammar, false)
  else ({ grammar with constructs := grammar.constructs ++ [construct] }, true)

/-- The construct that a line begins. -/
def constructFor (grammar : Grammar) (line : Text) : Construct :=
  (grammar.constructs.find? (·.opens line)).getD grammar.fallback

/-- The turns from a position on, the next of them getting the number `id`. -/
def turnsFrom (grammar : Grammar) (lines : List Text) (position id : Nat) : List Turn :=
  if h : position < lines.length then
    let line := Text.trim lines[position]
    if line.isEmpty then grammar.turnsFrom lines (position + 1) id
    else
      let (answer, next) := (grammar.constructFor line).consume lines position id
      ⟨position, id, answer⟩ :: grammar.turnsFrom lines (max next (position + 1)) (id + 1)
  else []
termination_by lines.length - position

/-- All turns over a list of lines. -/
def turns (grammar : Grammar) (lines : List Text) : List Turn :=
  grammar.turnsFrom lines 0 1

/-- The document that a list of lines holds. -/
def read (grammar : Grammar) (lines : List Text) : Outline :=
  let turns := grammar.turns lines
  { blocks := linked (turns.filterMap Turn.block?)
    diagnostics := turns.filterMap Turn.diagnostic? }

/-- The reading from a position on with room for that many levels, the next turn
getting the number `id`. -/
def attemptFrom (grammar : Grammar) (room : Nat) (lines : List Text) (position id : Nat)
    (state : Hanging) : Attempt :=
  if h : position < lines.length then
    let line := Text.trim lines[position]
    if line.isEmpty then grammar.attemptFrom room lines (position + 1) id state
    else
      let (answer, next) := (grammar.constructFor line).consume lines position id
      let turn : Turn := ⟨position, id, answer⟩
      match turn.settle? room state with
      | none => ⟨[turn], none⟩
      | some state =>
        (grammar.attemptFrom room lines (max next (position + 1)) (id + 1) state).behind turn
  else ⟨[], some state⟩
termination_by lines.length - position

/-- The reading of a list of lines with room for that many levels. -/
def attempt (grammar : Grammar) (room : Nat) (lines : List Text) : Attempt :=
  grammar.attemptFrom room lines 0 1 {}

/-- The document that a text holds. -/
def readText (grammar : Grammar) (text : Text) : Outline :=
  grammar.read (Text.documentLines text)

end Grammar

end RequestBook
