import RequestBook.Block
import RequestBook.Diagnostic

/-!
# Constructs

A construct is one way to build a block from lines. It says which lines
begin it, and from a place in the document it takes as many lines as belong
to it. It holds no state: the reader hands it a fresh number for the block
and goes on where the construct says it stopped.

The standard constructs share one rule for taking several lines: go on
until a line that is not theirs, change each line on its own, and join what
comes out. `gather` is that rule.
-/

namespace RequestBook

/-- A way to build a block from lines. -/
structure Construct where
  /-- The mark it is registered under. No two constructs share one. -/
  flag : Text
  /-- Whether a line, blanks at its ends removed, begins the construct. -/
  opens : Text → Bool
  /-- Takes lines from a position on, counted from zero, for a block with the
  given number. Answers the block or what is wrong, and the position where
  reading should go on. -/
  consume : (lines : List Text) → (position id : Nat) → Except Diagnostic Block × Nat

/-- Lines taken together. -/
structure Gathered where
  content : Text
  /-- The numbers of the lines, counted from one. -/
  lines : List Nat
  /-- The position of the first line that was left. -/
  next : Nat
  deriving DecidableEq, Repr

/-- Takes lines from a position on until `finished` holds of one or none is
left, changes each of them and joins them. -/
def gather (lines : List Text) (position : Nat) (separator : Text)
    (change : Text → Text) (finished : Text → Bool) : Gathered :=
  let taken := (lines.drop position).takeWhile fun line => !finished line
  { content := Text.join separator (taken.map change)
    lines := List.range' (position + 1) taken.length
    next := position + taken.length }

/-- What a construct answers when the line at hand does not begin it. -/
def refusal (construct : String) (position : Nat) : Except Diagnostic Block :=
  .error ⟨.expected construct.toList, position + 1⟩

/-! ## Headings -/

/-- How many heading marks a line begins with. -/
def headingLevel (line : Text) : Nat :=
  ((Text.trim line).takeWhile (· = headingMark)).length

/-- A line that begins with a heading mark. A heading is one line. -/
def heading : Construct where
  flag := [headingMark]
  opens line := Text.startsWith [headingMark] (Text.trimStart line)
  consume lines position id :=
    match lines[position]? with
    | none => (refusal "a heading" position, position)
    | some raw =>
      let line := Text.trim raw
      if Text.startsWith [headingMark] line then
        let level := headingLevel line
        (.ok { id, kind := .heading level 1
               content := Text.trimStart (line.drop level)
               lines := [position + 1] }, position + 1)
      else (refusal "a heading" position, position)

/-! ## Quotes -/

/-- A quoted line without its mark and the one space after it. -/
def unquoted (line : Text) : Text :=
  let line := Text.trimStart line
  let rest := (Text.after? [quoteMark] line).getD line
  Text.trimEnd ((Text.after? [' '] rest).getD rest)

/-- Whether a line is a quoted one. -/
def isQuoted (line : Text) : Bool :=
  Text.startsWith [quoteMark] (Text.trimStart line)

/-- Quoted lines in a row, joined with a space. -/
def quote : Construct where
  flag := [quoteMark]
  opens := isQuoted
  consume lines position id :=
    let taken := gather lines position [' '] unquoted fun line => !isQuoted line
    if taken.lines.isEmpty then (refusal "a blockquote" position, taken.next)
    else
      (.ok { id, kind := .quote, content := taken.content, lines := taken.lines },
        taken.next)

/-! ## Fenced code -/

/-- Whether a line holds the fence mark and nothing else. -/
def isFenceEnd (line : Text) : Bool := Text.trim line == fenceMark

/-- A fence, the raw lines up to the next line that is only the fence mark,
and that line. Without such a line the fence is no fence: it is reported and
reading goes on right after its first line. -/
def fence : Construct where
  flag := fenceMark
  opens line := Text.startsWith fenceMark (Text.trimStart line)
  consume lines position id :=
    match (lines[position]?).bind fun line => Text.after? fenceMark (Text.trim line) with
    | none => (refusal "a code fence" position, position)
    | some info =>
      let taken := gather lines (position + 1) ['\n'] (fun line => line) isFenceEnd
      if taken.next < lines.length then
        (.ok { id, kind := .fence (Text.trim info), content := taken.content
               lines := (position + 1) :: taken.lines ++ [taken.next + 1] },
          taken.next + 1)
      else (.error ⟨.unterminatedFence, position + 1⟩, position + 1)

/-! ## Paragraphs -/

/-- Lines up to a blank one, put together as they are. -/
def paragraph : Construct where
  flag := []
  opens line := !Text.allBlank line
  consume lines position id :=
    let taken := gather lines position [] (fun line => line) Text.allBlank
    if taken.lines.isEmpty then (refusal "a paragraph" position, taken.next)
    else
      (.ok { id, kind := .paragraph, content := Text.trim taken.content
             lines := taken.lines }, taken.next)

end RequestBook
