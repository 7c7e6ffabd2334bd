/-!
# Text as a list of characters

Every scanner of this library walks a text from the left, so a text is the
list of its characters and a scanner is a recursion on it. `String` appears
only at the edge, where bytes come in and go out.

The splitters below carry no accumulator: `fields` and `cut?` rebuild their
answer on the way back, so what they say about a text is said by induction
on the text and by nothing else.
-/

namespace RequestBook

/-- A text, character by character. -/
abbrev Text := List Char

namespace Text

/-! ## Blanks -/

/-- White space as Unicode means it, line and paragraph separators included. -/
def isBlank (c : Char) : Bool :=
  let code := c.toNat
  (9 ≤ code && code ≤ 13) || code == 0x20 || code == 0x85 || code == 0xA0
    || code == 0x1680 || (0x2000 ≤ code && code ≤ 0x200A) || code == 0x2028
    || code == 0x2029 || code == 0x202F || code == 0x205F || code == 0x3000

/-- The text without the blanks at its head. -/
def trimStart (t : Text) : Text := t.dropWhile isBlank

/-- The text without the blanks at its end. -/
def trimEnd (t : Text) : Text := (t.reverse.dropWhile isBlank).reverse

/-- The text without the blanks at either end. -/
def trim (t : Text) : Text := trimEnd (trimStart t)

/-- Whether a text holds nothing but blanks. -/
def allBlank (t : Text) : Bool := t.all isBlank

/-- Whether a code point lies in one of the ranges, ends included. -/
def inRanges (ranges : List (Nat × Nat)) (code : Nat) : Bool :=
  ranges.any fun (low, high) => low ≤ code && code ≤ high

/-! ## Looking for a part -/

/-- What follows `mark` when the text begins with it. -/
def after? : (mark t : Text) → Option Text
  | [], t => some t
  | _ :: _, [] => none
  | m :: mark, c :: t => if m = c then after? mark t else none

/-- Whether the text begins with `mark`. -/
def startsWith (mark t : Text) : Bool := (after? mark t).isSome

/-- Whether the text ends with `mark`. -/
def endsWith (mark t : Text) : Bool := startsWith mark.reverse t.reverse

/-- Whether `part` stands somewhere in the text. -/
def holds (part : Text) : Text → Bool
  | [] => part.isEmpty
  | c :: t => startsWith part (c :: t) || holds part t

/-- The text before and after the first `mark` in it. -/
def cut? (mark : Text) : Text → Option (Text × Text)
  | [] => if mark.isEmpty then some ([], []) else none
  | c :: t =>
    match after? mark (c :: t) with
    | some rest => some ([], rest)
    | none => (cut? mark t).map fun (before, rest) => (c :: before, rest)

/-! ## Splitting and joining -/

/-- The pieces between the separators: one more than there are separators. -/
def fields (separator : Char) : Text → List Text
  | [] => [[]]
  | c :: t =>
    if c = separator then [] :: fields separator t
    else
      match fields separator t with
      | [] => [[c]]
      | piece :: pieces => (c :: piece) :: pieces

/-- The pieces with `separator` between them. -/
def join (separator : Text) (pieces : List Text) : Text :=
  separator.intercalate pieces

/-- The lines of a text whose lines end with a line feed, each without its
line feed and the carriage return before it. A last line may lack its end. -/
def lines (t : Text) : List Text :=
  let pieces := fields '\n' t
  let ended := pieces.dropLast.map fun line =>
    if line.getLast? = some '\r' then line.dropLast else line
  match pieces.getLast? with
  | some (c :: rest) => ended ++ [c :: rest]
  | _ => ended

/-! ## Numbers -/

/-- What a digit counts. -/
def digitValue (c : Char) : Nat := c.toNat - '0'.toNat

/-- The number that decimal digits spell. -/
def natOfDigits (digits : Text) : Nat :=
  digits.foldl (fun n c => 10 * n + digitValue c) 0

/-- A natural number in decimal digits. -/
def ofNat (n : Nat) : Text := Nat.toDigits 10 n

/-- An integer in decimal digits, with its sign when it is negative. -/
def ofInt : Int → Text
  | .ofNat n => ofNat n
  | .negSucc n => '-' :: ofNat (n + 1)

/-- A natural number in at least `width` digits. -/
def ofNatPadded (width n : Nat) : Text :=
  let digits := ofNat n
  List.replicate (width - digits.length) '0' ++ digits

/-- The digit of a value below sixteen, in small letters. -/
def hexDigit (n : Nat) : Char :=
  if n < 10 then Char.ofNat ('0'.toNat + n) else Char.ofNat ('a'.toNat + (n - 10))

/-- What a hexadecimal digit of either case counts. -/
def hexValue? (c : Char) : Option Nat :=
  if c.isDigit then some (digitValue c)
  else if 'a' ≤ c && c ≤ 'f' then some (c.toNat - 'a'.toNat + 10)
  else if 'A' ≤ c && c ≤ 'F' then some (c.toNat - 'A'.toNat + 10)
  else none

/-- A number in hexadecimal digits, without leading zeros. -/
def ofNatHex (n : Nat) : Text := Nat.toDigits 16 n

/-! ## Order -/

/-- The order of texts by code point, a text before all that it begins. -/
def le : Text → Text → Bool
  | [], _ => true
  | _ :: _, [] => false
  | a :: s, b :: t => a.toNat < b.toNat || (a = b && le s t)

end Text

end RequestBook
