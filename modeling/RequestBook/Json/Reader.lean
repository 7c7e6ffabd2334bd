import RequestBook.Json
import RequestBook.Number.Word

/-!
# Reading JSON

The grammar is the standard one: blanks are space, tab, line feed and
carriage return, no comma may trail, and nothing but blanks may follow the
value. Beyond the grammar a value that is kept must be storable. Its strings
hold characters, so an escaped surrogate needs its partner; its numbers are
finite; and it is at most `deepest` brackets deep. None of that is asked of
a value that is passed over, so each scanner is told which of the two it
reads.

A scanner answers the value and the text after it. The ones that recurse on
brackets carry fuel, one unit for each character there is: every step takes
a character, so the fuel outlasts the text.
-/

namespace RequestBook

namespace Json

/-- Why a text is not the JSON that was asked for. -/
inductive Fault where
  | endOfInput
  | unexpected (c : Char)
  | badEscape
  | loneSurrogate
  | controlCharacter
  | badNumber
  | numberOutOfRange
  | tooDeep
  | trailing
  | wrongType (wanted : String)
  | missingField (name : String)
  | repeatedField (name : String)
  deriving DecidableEq, Repr

/-- The fault in words. -/
def Fault.message : Fault → Text
  | endOfInput => "unexpected end of input".toList
  | unexpected c => "unexpected character ".toList ++ [c]
  | badEscape => "invalid escape".toList
  | loneSurrogate => "lone surrogate in an escape".toList
  | controlCharacter => "control character in a string".toList
  | badNumber => "invalid number".toList
  | numberOutOfRange => "number out of range".toList
  | tooDeep => "too many levels of nesting".toList
  | trailing => "trailing characters".toList
  | wrongType wanted => "expected ".toList ++ wanted.toList
  | missingField name => "missing field ".toList ++ name.toList
  | repeatedField name => "duplicate field ".toList ++ name.toList

/-- Whether a value will be kept, and then how many more brackets it may
open, or passed over. -/
inductive Care where
  | keep (room : Nat)
  | pass
  deriving DecidableEq, Repr

/-- How many brackets a kept value may be deep. -/
def deepest : Nat := 127

/-- The care inside one more bracket. -/
def Care.inside? : Care → Except Fault Care
  | keep 0 => .error .tooDeep
  | keep (room + 1) => .ok (.keep room)
  | pass => .ok .pass

/-- Whether the value will be kept. -/
def Care.keeps : Care → Bool
  | keep _ => true
  | pass => false

/-- What a scanner has read: a value, and the text after it. -/
abbrev Scanned (α : Type) := α × Text

/-- A blank of JSON. -/
def isGap (c : Char) : Bool := c = ' ' || c = '\t' || c = '\n' || c = '\r'

/-- The text after its leading blanks. -/
def skipGap (t : Text) : Text := t.dropWhile isGap

/-- The fault of a text that does not go on as it should. -/
def stuck : Text → Fault
  | [] => .endOfInput
  | c :: _ => .unexpected c

/-! ## Strings -/

/-- The number that four hexadecimal digits spell. -/
def fourHex (t : Text) : Except Fault (Scanned Nat) :=
  match t with
  | a :: b :: c :: d :: rest =>
    match Text.hexValue? a, Text.hexValue? b, Text.hexValue? c, Text.hexValue? d with
    | some a, some b, some c, some d => .ok (((a * 16 + b) * 16 + c) * 16 + d, rest)
    | _, _, _, _ => .error .badEscape
  | _ => .error .endOfInput

/-- A unit that opens a pair of surrogates. -/
def isHighSurrogate (unit : Nat) : Bool := 0xD800 ≤ unit && unit ≤ 0xDBFF

/-- A unit that closes a pair of surrogates. -/
def isLowSurrogate (unit : Nat) : Bool := 0xDC00 ≤ unit && unit ≤ 0xDFFF

/-- The character of an escape with number, after its `u`. A high surrogate
takes the low one in the next escape with it. -/
def unicodeEscape (t : Text) : Except Fault (Scanned Char) := do
  let (unit, rest) ← fourHex t
  if isLowSurrogate unit then .error .loneSurrogate
  else if isHighSurrogate unit then
    match Text.after? ['\\', 'u'] rest with
    | none => .error .loneSurrogate
    | some rest =>
      let (second, rest) ← fourHex rest
      if isLowSurrogate second then
        .ok (Char.ofNat (0x10000 + (unit - 0xD800) * 0x400 + (second - 0xDC00)), rest)
      else .error .loneSurrogate
  else .ok (Char.ofNat unit, rest)

/-- The character of an escape, after its backslash. In a string that is
passed over any four digits will do. -/
def escape (care : Care) : Text → Except Fault (Scanned Char)
  | [] => .error .endOfInput
  | c :: rest =>
    if c = '"' || c = '\\' || c = '/' then .ok (c, rest)
    else if c = 'b' then .ok (Char.ofNat 8, rest)
    else if c = 'f' then .ok (Char.ofNat 12, rest)
    else if c = 'n' then .ok ('\n', rest)
    else if c = 'r' then .ok ('\r', rest)
    else if c = 't' then .ok ('\t', rest)
    else if c = 'u' then
      if care.keeps then unicodeEscape rest
      else (fourHex rest).map fun (_, rest) => ('u', rest)
    else .error .badEscape

/-- The rest of a string, after its opening quote. -/
def stringTail (care : Care) : Nat → Text → Except Fault (Scanned Text)
  | 0, _ => .error .endOfInput
  | _ + 1, [] => .error .endOfInput
  | fuel + 1, c :: rest =>
    if c = '"' then .ok ([], rest)
    else if c = '\\' then do
      let (escaped, rest) ← escape care rest
      let (tail, rest) ← stringTail care fuel rest
      .ok (escaped :: tail, rest)
    else if c.toNat < 32 then .error .controlCharacter
    else do
      let (tail, rest) ← stringTail care fuel rest
      .ok (c :: tail, rest)

/-- A string, from its opening quote on. -/
def string? (care : Care) : Text → Except Fault (Scanned Text)
  | '"' :: rest => stringTail care (rest.length + 1) rest
  | t => .error (stuck t)

/-! ## Numbers -/

/-- The parts of a number as it is written. -/
structure Numeral where
  negative : Bool
  whole : Text
  fraction : Option Text
  power : Option Int
  deriving DecidableEq, Repr

/-- The digits at the head of a text, of which there must be one. -/
def digits (t : Text) : Except Fault (Scanned Text) :=
  match t.takeWhile Char.isDigit with
  | [] => .error (if t.isEmpty then .endOfInput else .badNumber)
  | found => .ok (found, t.dropWhile Char.isDigit)

/-- The digits before the point: a zero that comes first is the only one. -/
def wholeDigits (t : Text) : Except Fault (Scanned Text) := do
  let (found, rest) ← digits t
  match found with
  | '0' :: _ :: _ => .error .badNumber
  | _ => .ok (found, rest)

/-- The digits behind the point, if there is a point. -/
def fractionDigits : Text → Except Fault (Scanned (Option Text))
  | '.' :: rest => (digits rest).map fun (found, rest) => (some found, rest)
  | t => .ok (none, t)

/-- The power of ten behind its letter, if there is one. -/
def powerDigits : Text → Except Fault (Scanned (Option Int))
  | [] => .ok (none, [])
  | c :: rest =>
    if c = 'e' || c = 'E' then
      let (negative, rest) :=
        match rest with
        | '+' :: rest => (false, rest)
        | '-' :: rest => (true, rest)
        | rest => (false, rest)
      (digits rest).map fun (found, rest) =>
        let power := Int.ofNat (Text.natOfDigits found)
        (some (if negative then -power else power), rest)
    else .ok (none, c :: rest)

/-- A number as it is written. -/
def numeral (t : Text) : Except Fault (Scanned Numeral) := do
  let (negative, rest) :=
    match t with
    | '-' :: rest => (true, rest)
    | _ => (false, t)
  let (whole, rest) ← wholeDigits rest
  let (fraction, rest) ← fractionDigits rest
  let (power, rest) ← powerDigits rest
  .ok (⟨negative, whole, fraction, power⟩, rest)

/-- The greatest number that 64 bits hold. -/
def greatestWord : Nat := 0xFFFFFFFFFFFFFFFF

/-- Digits put behind a number as long as 64 bits hold it, and how many
digits were put there. -/
def fillWord (n : Nat) : Text → Nat × Nat
  | [] => (n, 0)
  | c :: rest =>
    let next := 10 * n + Text.digitValue c
    if next > greatestWord then (n, 0)
    else
      let (filled, count) := fillWord next rest
      (filled, count + 1)

/-- A number times a power of ten, in steps that 64 bits can do: the largest
power there is, as often as it takes. -/
def scaleByTens : Nat → Binary64 → Int → Except Fault Binary64
  | 0, x, _ => .ok x
  | fuel + 1, x, power =>
    if power.natAbs ≤ 308 then
      if power ≥ 0 then
        match x.times (.powerOfTen power.toNat) with
        | .finite negative mantissa exponent => .ok (.finite negative mantissa exponent)
        | _ => .error .numberOutOfRange
      else .ok (x.dividedBy (.powerOfTen power.natAbs))
    else if x.isZero then .ok x
    else if power ≥ 0 then .error .numberOutOfRange
    else scaleByTens fuel (x.dividedBy (.powerOfTen 308)) (power + 308)

/-- The value of a numeral. A whole number that fits 64 bits, with or without
a sign, is kept exactly. Of any other number the digits that fit 64 bits are
taken and brought to scale in binary; zero below nothing is such a number. -/
def Numeral.value (n : Numeral) : Except Fault Json := do
  let (filled, used) := fillWord 0 n.whole
  let dropped := n.whole.length - used
  match n.fraction, n.power with
  | none, none =>
    if dropped = 0 then
      if !n.negative then return .integer (Int.ofNat filled)
      if filled ≠ 0 && FitsWord (-(Int.ofNat filled)) then
        return .integer (-(Int.ofNat filled))
  | _, _ => pure ()
  let (filled, behind) := fillWord filled (n.fraction.getD [])
  let power := Int.ofNat dropped - Int.ofNat behind + n.power.getD 0
  let x ← scaleByTens 5 (.ofNat filled) power
  return .number (if n.negative then x.negated else x)

/-- A number. One that is passed over may be of any size. -/
def number? (care : Care) (t : Text) : Except Fault (Scanned Json) := do
  let (n, rest) ← numeral t
  if care.keeps then
    let value ← n.value
    .ok (value, rest)
  else .ok (.null, rest)

/-! ## Values -/

mutual

/-- A value, blanks before it passed over. -/
def value (care : Care) : Nat → Text → Except Fault (Scanned Json)
  | 0, _ => .error .endOfInput
  | fuel + 1, t =>
    match skipGap t with
    | [] => .error .endOfInput
    | c :: rest =>
      if c = '"' then
        (stringTail care (rest.length + 1) rest).map fun (s, rest) => (.string s, rest)
      else if c = '[' then do
        let care ← care.inside?
        match skipGap rest with
        | ']' :: rest => .ok (.array [], rest)
        | rest =>
          let (items, rest) ← items care fuel rest
          .ok (.array items, rest)
      else if c = '\x7b' then do
        let care ← care.inside?
        match skipGap rest with
        | '\x7d' :: rest => .ok (.object [], rest)
        | rest =>
          let (members, rest) ← members care fuel rest
          .ok (.object members, rest)
      else if c = '-' || c.isDigit then number? care (c :: rest)
      else
        match Text.after? "null".toList (c :: rest), Text.after? "true".toList (c :: rest),
            Text.after? "false".toList (c :: rest) with
        | some rest, _, _ => .ok (.null, rest)
        | _, some rest, _ => .ok (.bool true, rest)
        | _, _, some rest => .ok (.bool false, rest)
        | none, none, none => .error (.unexpected c)

/-- The items of an array, at least one, and its closing bracket. -/
def items (care : Care) : Nat → Text → Except Fault (Scanned (List Json))
  | 0, _ => .error .endOfInput
  | fuel + 1, t => do
    let (item, rest) ← value care fuel t
    match skipGap rest with
    | ',' :: rest =>
      let (others, rest) ← items care fuel rest
      .ok (item :: others, rest)
    | ']' :: rest => .ok ([item], rest)
    | rest => .error (stuck rest)

/-- The members of an object, at least one, and its closing brace. -/
def members (care : Care) : Nat → Text → Except Fault (Scanned (List (Text × Json)))
  | 0, _ => .error .endOfInput
  | fuel + 1, t => do
    let (key, rest) ← string? care (skipGap t)
    match skipGap rest with
    | ':' :: rest =>
      let (item, rest) ← value care fuel rest
      match skipGap rest with
      | ',' :: rest =>
        let (others, rest) ← members care fuel rest
        .ok ((key, item) :: others, rest)
      | '\x7d' :: rest => .ok ([(key, item)], rest)
      | rest => .error (stuck rest)
    | rest => .error (stuck rest)

end

/-- The fuel that a text asks for. -/
def fuelFor (t : Text) : Nat := 2 * t.length + 2

/-- The answer of a scanner whose text must end after the value. -/
def complete {α : Type} (scan : Except Fault (Scanned α)) : Except Fault α := do
  let (value, rest) ← scan
  if (skipGap rest).isEmpty then .ok value else .error .trailing

/-- The value that a text holds. -/
def read (t : Text) : Except Fault Json := complete (value (.keep deepest) (fuelFor t) t)

/-! ## Records -/

/-- The members of an object of which only some are wanted, at least one
member, and the closing brace. Values under other keys are passed over and
left out. -/
def wantedMembers (wanted : Text → Bool) : Nat → Text → Except Fault (Scanned (List (Text × Json)))
  | 0, _ => .error .endOfInput
  | fuel + 1, t => do
    let (key, rest) ← string? (.keep deepest) (skipGap t)
    let care := if wanted key then Care.keep (deepest - 1) else .pass
    match skipGap rest with
    | ':' :: rest =>
      let (item, rest) ← value care (fuelFor rest) rest
      let kept := if wanted key then [(key, item)] else []
      match skipGap rest with
      | ',' :: rest =>
        let (others, rest) ← wantedMembers wanted fuel rest
        .ok (kept ++ others, rest)
      | '\x7d' :: rest => .ok (kept, rest)
      | rest => .error (stuck rest)
    | rest => .error (stuck rest)

/-- The wanted members of the object that a text holds, in order. -/
def readWanted (wanted : Text → Bool) (t : Text) : Except Fault (List (Text × Json)) :=
  match skipGap t with
  | '\x7b' :: rest =>
    match skipGap rest with
    | '\x7d' :: rest => complete (.ok ([], rest))
    | rest => complete (wantedMembers wanted (fuelFor rest) rest)
  | rest => .error (stuck rest)

/-! ## Values of one type -/

/-- The characters of a string. -/
def asText : Json → Except Fault Text
  | string value => .ok value
  | _ => .error (.wrongType "a string")

/-- The items of an array. -/
def asItems : Json → Except Fault (List Json)
  | array items => .ok items
  | _ => .error (.wrongType "an array")

/-- The members of an object. -/
def asMembers : Json → Except Fault (List (Text × Json))
  | object members => .ok members
  | _ => .error (.wrongType "an object")

end Json

end RequestBook
