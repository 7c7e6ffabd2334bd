import RequestBook.Number.Shortest

/-!
# JSON values

A value is kept as it was written: the members of an object in their order,
a repeated one repeated. Two things are made of it. `written` puts it back
into text without a blank, `indented` spreads it over lines; both keep the
order. `sorted` brings it into the form in which a value inside another
stands for itself: members by key, and of a repeated one the last.
-/

namespace RequestBook

/-- A JSON value. Whole numbers are kept exactly, all others in binary. -/
inductive Json where
  | null
  | bool (value : Bool)
  | integer (value : Int)
  | number (value : Binary64)
  | string (value : Text)
  | array (items : List Json)
  | object (members : List (Text × Json))

namespace Json

/-! ## Writing -/

/-- A character inside a JSON string. -/
def writtenChar (c : Char) : Text :=
  if c = '"' || c = '\\' then ['\\', c]
  else if c = '\n' then ['\\', 'n']
  else if c = '\r' then ['\\', 'r']
  else if c = '\t' then ['\\', 't']
  else if c.toNat = 8 then ['\\', 'b']
  else if c.toNat = 12 then ['\\', 'f']
  else if c.toNat < 32 then
    ['\\', 'u', '0', '0', Text.hexDigit (c.toNat / 16), Text.hexDigit (c.toNat % 16)]
  else [c]

/-- A text as a JSON string. -/
def writtenString (t : Text) : Text := ['"'] ++ t.flatMap writtenChar ++ ['"']

mutual

/-- The value in text, with no blank. -/
def written : Json → Text
  | null => "null".toList
  | bool value => if value then "true".toList else "false".toList
  | integer value => Text.ofInt value
  | number value => value.jsonText
  | string value => writtenString value
  | array items => ['['] ++ Text.join [','] (writtenItems items) ++ [']']
  | object members => ['\x7b'] ++ Text.join [','] (writtenMembers members) ++ ['\x7d']

/-- Each item in text. -/
def writtenItems : List Json → List Text
  | [] => []
  | item :: items => written item :: writtenItems items

/-- Each member in text. -/
def writtenMembers : List (Text × Json) → List Text
  | [] => []
  | (key, value) :: members =>
    (writtenString key ++ [':'] ++ written value) :: writtenMembers members

end

/-- Parts on lines of their own between two brackets, or the brackets alone
around nothing. -/
def block (opening closing : Char) (depth : Nat) (parts : List Text) : Text :=
  let margin (n : Nat) : Text := '\n' :: List.replicate (2 * n) ' '
  if parts.isEmpty then [opening, closing]
  else
    [opening] ++ Text.join [','] (parts.map fun part => margin (depth + 1) ++ part)
      ++ margin depth ++ [closing]

mutual

/-- The value spread over lines, two blanks deeper in each bracket. -/
def indented (depth : Nat) : Json → Text
  | array items => block '[' ']' depth (indentedItems (depth + 1) items)
  | object members => block '\x7b' '\x7d' depth (indentedMembers (depth + 1) members)
  | null => written null
  | bool value => written (bool value)
  | integer value => written (integer value)
  | number value => written (number value)
  | string value => written (string value)

/-- Each item, spread over lines. -/
def indentedItems (depth : Nat) : List Json → List Text
  | [] => []
  | item :: items => indented depth item :: indentedItems depth items

/-- Each member, its value spread over lines. -/
def indentedMembers (depth : Nat) : List (Text × Json) → List Text
  | [] => []
  | (key, value) :: members =>
    (writtenString key ++ ": ".toList ++ indented depth value)
      :: indentedMembers depth members

end

/-! ## Sorting -/

/-- Members in key order with one more put in; an equal key is replaced. -/
def putMember (key : Text) (value : Json) : List (Text × Json) → List (Text × Json)
  | [] => [(key, value)]
  | member :: rest =>
    if member.1 = key then (key, value) :: rest
    else if Text.le key member.1 then (key, value) :: member :: rest
    else member :: putMember key value rest

mutual

/-- The value with the members of every object in key order, the last of
equal keys kept. -/
def sorted : Json → Json
  | array items => array (sortedItems items)
  | object members =>
    object ((sortedMembers members).foldl (fun done m => putMember m.1 m.2 done) [])
  | null => null
  | bool value => bool value
  | integer value => integer value
  | number value => number value
  | string value => string value

/-- Each item, sorted. -/
def sortedItems : List Json → List Json
  | [] => []
  | item :: items => sorted item :: sortedItems items

/-- Each member with its value sorted, in the order given. -/
def sortedMembers : List (Text × Json) → List (Text × Json)
  | [] => []
  | (key, value) :: members => (key, sorted value) :: sortedMembers members

end

/-- The value as a text of its own: a string is its characters, and any other
value is written out with sorted members. -/
def plainText : Json → Text
  | string value => value
  | value => (sorted value).written

end Json

end RequestBook
