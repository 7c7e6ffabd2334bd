import RequestBook.Outline

/-!
# Sections

A section is a request in the making: a heading of the second level with
blocks below it. Its fields are the headings of the third level below it
that have blocks of their own, and the value of a field is the first of
those.

A block serves once. A section heading, a field heading and a value are
taken from what is left of the document when they are reached, so a block
named a second time is not there any more. Blocks that were read from lines
never are named twice; a list made in another way may name them as it likes.
-/

namespace RequestBook

/-- Level of the heading of a section. -/
def sectionLevel : Nat := 2

/-- Level of the heading of a field. -/
def fieldLevel : Nat := 3

/-- A field of a section: its heading, and its value unless that was taken
before. -/
structure SectionField where
  heading : Block
  value : Option Block
  deriving DecidableEq, Repr

/-- A section: its heading, its name and its fields. -/
structure Section where
  heading : Block
  name : Text
  fields : List SectionField
  deriving DecidableEq, Repr

/-- The block with a number. Of several with one number the last is meant. -/
def blockNumbered? (blocks : List Block) (id : Nat) : Option Block :=
  blocks.reverse.find? (·.id == id)

/-- The block with a number, unless it is among those taken. -/
def untaken? (blocks : List Block) (taken : List Nat) (id : Nat) : Option Block :=
  if taken.contains id then none else blockNumbered? blocks id

/-- The fields named by a list of numbers, and what is taken after them. -/
def fieldsFrom (blocks : List Block) : (ids taken : List Nat) →
    List SectionField × List Nat
  | [], taken => ([], taken)
  | id :: ids, taken =>
    match untaken? blocks taken id with
    | none => fieldsFrom blocks ids taken
    | some heading =>
      match heading.isHeadingAt fieldLevel, heading.children with
      | true, valueId :: _ =>
        let taken := id :: taken
        match untaken? blocks taken valueId with
        | none =>
          let (fields, taken) := fieldsFrom blocks ids taken
          (⟨heading, none⟩ :: fields, taken)
        | some value =>
          let (fields, taken) := fieldsFrom blocks ids (valueId :: taken)
          (⟨heading, some value⟩ :: fields, taken)
      | _, _ => fieldsFrom blocks ids taken

/-- Whether a block begins a section. -/
def beginsSection (block : Block) : Bool :=
  block.isHeadingAt sectionLevel && block.hasChildren

/-- The name of a section: that of its heading, behind that of the heading
above it and an at sign if there is one. -/
def sectionName (blocks : List Block) (heading : Block) : Text :=
  let own := Text.trim heading.content
  match heading.parent.bind (blockNumbered? blocks) with
  | some above => Text.trim above.content ++ ['@'] ++ own
  | none => own

/-- The sections that begin with the given headings. -/
def sectionsFrom (blocks : List Block) : (headings : List Block) → (taken : List Nat) →
    List Section
  | [], _ => []
  | heading :: headings, taken =>
    let (fields, taken) := fieldsFrom blocks heading.children (heading.id :: taken)
    ⟨heading, sectionName blocks heading, fields⟩ :: sectionsFrom blocks headings taken

/-- The sections of a list of blocks. -/
def sections (blocks : List Block) : List Section :=
  sectionsFrom blocks (blocks.filter beginsSection) []

end RequestBook
