import RequestBook.Calendar.Date
import RequestBook.Number.Word
import RequestBook.Toml

/-!
# Strings, numbers and moments of TOML

Each scanner reads one kind of value at the head of a text and answers it
with the text after it. Which kind begins where is told apart by the first
characters, and between moments, floats and integers by trying them in that
order.
-/

namespace RequestBook

namespace Toml

/-- What a scanner has read: a value, and the text after it. -/
abbrev Scanned (α : Type) := α × Text

/-! ## Characters -/

/-- A blank inside a line. -/
def isSpace (c : Char) : Bool := c = ' ' || c = '\t'

/-- A character that may stand in a line: no control but the tab. -/
def isLineChar (c : Char) : Bool :=
  c = '\t' || (0x20 ≤ c.toNat && c.toNat ≠ 0x7F)

/-- The text after its leading blanks. -/
def skipSpace (t : Text) : Text := t.dropWhile isSpace

/-- The text after an end of line, if it begins with one. -/
def afterLineEnd? : Text → Option Text
  | '\n' :: rest => some rest
  | '\r' :: '\n' :: rest => some rest
  | _ => none

/-- The text after blanks and ends of line. -/
def skipSpaceAndLines : Nat → Text → Text
  | 0, t => t
  | fuel + 1, t =>
    let t := skipSpace t
    match afterLineEnd? t with
    | some rest => skipSpaceAndLines fuel rest
    | none => t

/-! ## Strings -/

/-- The character that a number of hexadecimal digits stands for. -/
def scalarEscape (count : Nat) (t : Text) : Except Fault (Scanned Char) :=
  let digits := t.take count
  match digits.mapM Text.hexValue? with
  | some values =>
    let code := values.foldl (fun n v => 16 * n + v) 0
    if digits.length = count && code.isValidChar then
      .ok (Char.ofNat code, t.drop count)
    else .error .malformed
  | none => .error .malformed

/-- The character of an escape, after its backslash. -/
def escape : Text → Except Fault (Scanned Char)
  | 'b' :: rest => .ok (Char.ofNat 8, rest)
  | 'f' :: rest => .ok (Char.ofNat 12, rest)
  | 'n' :: rest => .ok ('\n', rest)
  | 'r' :: rest => .ok ('\r', rest)
  | 't' :: rest => .ok ('\t', rest)
  | '"' :: rest => .ok ('"', rest)
  | '\\' :: rest => .ok ('\\', rest)
  | 'u' :: rest => scalarEscape 4 rest
  | 'U' :: rest => scalarEscape 8 rest
  | _ => .error .malformed

/-- The rest of a string on one line, after its opening quote. -/
def basicTail : Nat → Text → Except Fault (Scanned Text)
  | 0, _ => .error .malformed
  | _ + 1, [] => .error .malformed
  | fuel + 1, c :: rest =>
    if c = '"' then .ok ([], rest)
    else if c = '\\' then do
      let (escaped, rest) ← escape rest
      let (tail, rest) ← basicTail fuel rest
      .ok (escaped :: tail, rest)
    else if isLineChar c then do
      let (tail, rest) ← basicTail fuel rest
      .ok (c :: tail, rest)
    else .error .malformed

/-- The rest of a literal string on one line, after its opening quote. -/
def literalTail : Text → Except Fault (Scanned Text)
  | [] => .error .malformed
  | c :: rest =>
    if c = '\'' then .ok ([], rest)
    else if isLineChar c then do
      let (tail, rest) ← literalTail rest
      .ok (c :: tail, rest)
    else .error .malformed

/-- The text after a backslash that ends its line, if it does: the line end
and all blanks and line ends after it. -/
def afterContinuation? (t : Text) : Option Text :=
  (afterLineEnd? (skipSpace t)).map fun rest => skipSpaceAndLines (rest.length + 1) rest

/-- The rest of a string over several lines, after its opening quotes. Up to
two quotes may stand before the three that close it. -/
def longTail (quote : Char) (escapes : Bool) : Nat → Text → Except Fault (Scanned Text)
  | 0, _ => .error .malformed
  | _ + 1, [] => .error .malformed
  | fuel + 1, c :: rest =>
    if c = quote then
      let quotes := (c :: rest).takeWhile (· = quote)
      let after := (c :: rest).dropWhile (· = quote)
      if quotes.length < 3 then do
        let (tail, rest) ← longTail quote escapes fuel after
        .ok (quotes ++ tail, rest)
      else if quotes.length ≤ 5 then .ok (quotes.drop 3, after)
      else .error .malformed
    else if c = '\\' && escapes then
      match afterContinuation? rest with
      | some rest => longTail quote escapes fuel rest
      | none => do
        let (escaped, rest) ← escape rest
        let (tail, rest) ← longTail quote escapes fuel rest
        .ok (escaped :: tail, rest)
    else
      match afterLineEnd? (c :: rest) with
      | some rest => do
        let (tail, rest) ← longTail quote escapes fuel rest
        .ok ('\n' :: tail, rest)
      | none =>
        if isLineChar c then do
          let (tail, rest) ← longTail quote escapes fuel rest
          .ok (c :: tail, rest)
        else .error .malformed

/-- A string over several lines, after its opening quotes. A line end right
after them does not count. -/
def longString (quote : Char) (escapes : Bool) (t : Text) : Except Fault (Scanned Text) :=
  let t := (afterLineEnd? t).getD t
  longTail quote escapes (t.length + 1) t

/-- A string on one line, from its opening quote on. -/
def shortString : Text → Except Fault (Scanned Text)
  | '"' :: rest => basicTail (rest.length + 1) rest
  | '\'' :: rest => literalTail rest
  | _ => .error .malformed

/-- A string of any kind, from its opening quote on. -/
def anyString (t : Text) : Except Fault (Scanned Text) :=
  match Text.after? ['"', '"', '"'] t, Text.after? ['\'', '\'', '\''] t with
  | some rest, _ => longString '"' true rest
  | _, some rest => longString '\'' false rest
  | none, none => shortString t

/-! ## Keys -/

/-- A character of a key that is not quoted. -/
def isBareChar (c : Char) : Bool :=
  c.isAlpha || c.isDigit || c = '-' || c = '_'

/-- One step of a key. -/
def simpleKey (t : Text) : Except Fault (Scanned Text) :=
  match t with
  | '"' :: _ => shortString t
  | '\'' :: _ => shortString t
  | _ =>
    match t.takeWhile isBareChar with
    | [] => .error .malformed
    | key => .ok (key, t.dropWhile isBareChar)

/-- The most steps that a key may have. -/
def deepestKey : Nat := 79

/-- The steps of a key, blanks around each passed over: those before the last
and the last. -/
def dottedKey : Nat → Text → Except Fault (Scanned (List Text × Text))
  | 0, _ => .error .tooDeep
  | room + 1, t => do
    let (key, rest) ← simpleKey (skipSpace t)
    match skipSpace rest with
    | '.' :: rest =>
      let ((path, last), rest) ← dottedKey room rest
      .ok ((key :: path, last), rest)
    | rest => .ok (([], key), rest)

/-! ## Numbers -/

/-- The digits of a number with single underscores between them taken out. -/
def digitsTail (isDigit : Char → Bool) : Text → Except Fault (Scanned Text)
  | [] => .ok ([], [])
  | '_' :: c :: rest =>
    if isDigit c then do
      let (tail, rest) ← digitsTail isDigit rest
      .ok (c :: tail, rest)
    else .error .malformed
  | c :: rest =>
    if c = '_' then .error .malformed
    else if isDigit c then do
      let (tail, rest) ← digitsTail isDigit rest
      .ok (c :: tail, rest)
    else .ok ([], c :: rest)

/-- The digits of a number, at least one. -/
def digits (isDigit : Char → Bool) : Text → Except Fault (Scanned Text)
  | c :: rest =>
    if isDigit c then do
      let (tail, rest) ← digitsTail isDigit rest
      .ok (c :: tail, rest)
    else .error .malformed
  | [] => .error .malformed

/-- A sign, and whether it is a minus. -/
def sign : Text → Bool × Text
  | '-' :: rest => (true, rest)
  | '+' :: rest => (false, rest)
  | t => (false, t)

/-- A decimal number without point: a zero is its only digit or not its
first. -/
def decimalDigits (t : Text) : Except Fault (Scanned Text) :=
  match t with
  | '0' :: rest => .ok (['0'], rest)
  | _ => digits Char.isDigit t

/-- An integer must fit 64 bits with a sign. -/
def inRange (n : Int) : Except Fault Toml :=
  if FitsWord n then .ok (.integer n) else .error .outOfRange

/-- A number in digits of a base that is a power of two. -/
def basedInteger (base : Nat) (t : Text) : Except Fault (Scanned Toml) := do
  let isDigit (c : Char) := (Text.hexValue? c).any (· < base)
  let (found, rest) ← digits isDigit t
  let n := found.foldl (fun n c => base * n + (Text.hexValue? c).getD 0) 0
  let value ← inRange n
  .ok (value, rest)

/-- An integer. -/
def integer? (t : Text) : Except Fault (Scanned Toml) :=
  match t with
  | '0' :: 'x' :: rest => basedInteger 16 rest
  | '0' :: 'o' :: rest => basedInteger 8 rest
  | '0' :: 'b' :: rest => basedInteger 2 rest
  | _ => do
    let (negative, rest) := sign t
    let (found, rest) ← decimalDigits rest
    let n := Int.ofNat (Text.natOfDigits found)
    let value ← inRange (if negative then -n else n)
    .ok (value, rest)

/-- The power of ten of a float, after its letter. -/
def floatPower (t : Text) : Except Fault (Scanned Int) := do
  let (negative, rest) := sign t
  let (found, rest) ← digits Char.isDigit rest
  let n := Int.ofNat (Text.natOfDigits found)
  .ok (if negative then -n else n, rest)

/-- The power of ten of a float, if it has one. -/
def optionalPower : Text → Except Fault (Scanned Int)
  | 'e' :: rest => floatPower rest
  | 'E' :: rest => floatPower rest
  | t => .ok (0, t)

/-- A float, if a number with a point or a power of ten begins the text. One
beyond all numbers is refused when it is positive. -/
def float? (t : Text) : Option (Except Fault (Scanned Toml)) :=
  let (negative, rest) := sign t
  match Text.after? "inf".toList rest, Text.after? "nan".toList rest with
  | some rest, _ => some (.ok (.float (.infinite negative), rest))
  | _, some rest => some (.ok (.float .nan, rest))
  | none, none =>
    match decimalDigits rest with
    | .error _ => none
    | .ok (whole, rest) =>
      let finish (fraction rest : Text) : Except Fault (Scanned Toml) := do
        let (power, rest) ← optionalPower rest
        let n := Text.natOfDigits (whole ++ fraction)
        match Binary64.ofDecimal negative n (power - Int.ofNat fraction.length) with
        | .infinite false => .error .outOfRange
        | x => .ok (.float x, rest)
      match rest with
      | '.' :: rest => some do
        let (fraction, rest) ← digits Char.isDigit rest
        finish fraction rest
      | 'e' :: _ => some (finish [] rest)
      | 'E' :: _ => some (finish [] rest)
      | _ => none

/-! ## Moments -/

/-- A number of exactly `count` digits between two bounds. -/
def part (count least most : Nat) (t : Text) : Except Fault (Scanned Nat) :=
  let found := t.take count
  let n := Text.natOfDigits found
  if found.length = count && found.all Char.isDigit && least ≤ n && n ≤ most then
    .ok (n, t.drop count)
  else .error .malformed

/-- The text after a character that must come next. -/
def mark (c : Char) (t : Text) : Except Fault Text :=
  match Text.after? [c] t with
  | some rest => .ok rest
  | none => .error .malformed

/-- The nanoseconds that the digits after the point of a second make. Those
after the ninth do not count. -/
def nanosOfDigits (digits : Text) : Nat :=
  Text.natOfDigits ((digits ++ List.replicate 9 '0').take 9)

/-- A time of day, with seconds and perhaps parts of one. -/
def clock (t : Text) : Except Fault (Scanned Clock) := do
  let (hour, rest) ← part 2 0 23 t
  let (minute, rest) ← part 2 0 59 (← mark ':' rest)
  let (second, rest) ← part 2 0 60 (← mark ':' rest)
  match rest with
  | '.' :: rest =>
    match rest.takeWhile Char.isDigit with
    | [] => .error .malformed
    | digits =>
      .ok (⟨hour, minute, second, nanosOfDigits digits⟩, rest.dropWhile Char.isDigit)
  | rest => .ok (⟨hour, minute, second, 0⟩, rest)

/-- The distance from Greenwich, if there is one. -/
def zone : Text → Except Fault (Scanned (Option Zone))
  | 'Z' :: rest => .ok (some .greenwich, rest)
  | 'z' :: rest => .ok (some .greenwich, rest)
  | c :: rest =>
    if c = '+' || c = '-' then do
      let (hours, rest) ← part 2 0 23 rest
      let (minutes, rest) ← part 2 0 59 (← mark ':' rest)
      let distance := Int.ofNat (60 * hours + minutes)
      .ok (some (.east (if c = '-' then -distance else distance)), rest)
    else .ok (none, c :: rest)
  | [] => .ok (none, [])

/-- A date. -/
def date (t : Text) : Except Fault (Scanned Date) := do
  let (year, rest) ← part 4 0 9999 t
  let (month, rest) ← part 2 1 12 (← mark '-' rest)
  let (day, rest) ← part 2 1 (monthLength year month) (← mark '-' rest)
  .ok (⟨year, month, day⟩, rest)

/-- Whether `count` digits and a character begin the text, as they do a date
and a time. -/
def beginsWith (count : Nat) (c : Char) (t : Text) : Bool :=
  (t.take count).length = count && (t.take count).all Char.isDigit
    && (t.drop count).head? = some c

/-- A moment, if a date or a time begins the text. -/
def moment? (t : Text) : Option (Except Fault (Scanned Moment)) :=
  if beginsWith 4 '-' t then some do
    let (date, rest) ← date t
    match rest with
    | c :: after =>
      if c = 'T' || c = 't' || (c = ' ' && beginsWith 2 ':' after) then
        let (clock, rest) ← clock after
        let (zone, rest) ← zone rest
        .ok (.full date clock zone, rest)
      else .ok (.date date, c :: after)
    | [] => .ok (.date date, [])
  else if beginsWith 2 ':' t then
    some ((clock t).map fun (clock, rest) => (.clock clock, rest))
  else none

/-- A number or a moment. -/
def number? (t : Text) : Except Fault (Scanned Toml) :=
  match moment? t with
  | some found => found.map fun (m, rest) => (.moment m, rest)
  | none =>
    match float? t with
    | some found => found
    | none => integer? t

end Toml

end RequestBook
