import RequestBook.Calendar.Timestamp
import RequestBook.Text

/-!
# Patterns for timestamps

A pattern is written with letters that look like what they stand for,
`yyyy-MM-dd HH:mm:ss`. It is first brought into the form in which each field
is a percent sign and a letter, and then filled in. Whatever is no field is
copied, a percent sign among the rest. A percent sign with nothing behind it, or
with a letter that stands for no field, would be a mistake in that second form,
and no pattern leads to one.
-/

namespace RequestBook

/-- The pattern with its fields as percent sign and letter. A percent sign of
its own becomes two. -/
def percentPattern : Text → Text
  | 'y' :: 'y' :: 'y' :: 'y' :: rest => '%' :: 'Y' :: percentPattern rest
  | 'M' :: 'M' :: rest => '%' :: 'm' :: percentPattern rest
  | 'd' :: 'd' :: rest => '%' :: 'd' :: percentPattern rest
  | 'H' :: 'H' :: rest => '%' :: 'H' :: percentPattern rest
  | 'm' :: 'm' :: rest => '%' :: 'M' :: percentPattern rest
  | 's' :: 's' :: rest => '%' :: 'S' :: percentPattern rest
  | '%' :: rest => '%' :: '%' :: percentPattern rest
  | c :: rest => c :: percentPattern rest
  | [] => []

/-- A year in at least four digits, with a sign unless four are enough. -/
def yearText (year : Int) : Text :=
  let digits := Text.ofNatPadded 4 year.natAbs
  if year < 0 then '-' :: digits
  else if year > 9999 then '+' :: digits
  else digits

/-- A date as year, month and day with hyphens. -/
def Date.text (d : Date) : Text :=
  yearText d.year ++ ['-'] ++ Text.ofNatPadded 2 d.month ++ ['-']
    ++ Text.ofNatPadded 2 d.day

namespace Timestamp

/-- The field that a letter stands for, if it stands for one. A leap second is
the sixtieth. -/
def field? (t : Timestamp) (letter : Char) : Option Text :=
  match letter with
  | 'Y' => some (yearText t.date.year)
  | 'm' => some (Text.ofNatPadded 2 t.date.month)
  | 'd' => some (Text.ofNatPadded 2 t.date.day)
  | 'H' => some (Text.ofNatPadded 2 t.hour)
  | 'M' => some (Text.ofNatPadded 2 t.minute)
  | 'S' => some (Text.ofNatPadded 2 (t.second + t.nano / nanosPerSecond))
  | '%' => some ['%']
  | _ => none

/-- A percent pattern filled in, if what follows each percent sign stands for a
field. -/
def filledIn? (t : Timestamp) : Text → Option Text
  | ['%'] => none
  | '%' :: letter :: rest =>
    match t.field? letter with
    | some text => (t.filledIn? rest).map (text ++ ·)
    | none => none
  | c :: rest => (t.filledIn? rest).map (c :: ·)
  | [] => some []

section FilledIn

variable {t : Timestamp} {c letter : Char} {text : Text}

theorem filledIn?_field (h : t.field? letter = some text) (rest : Text) :
    t.filledIn? ('%' :: letter :: rest) = (t.filledIn? rest).map (text ++ ·) := by
  rw [filledIn?, h]

theorem filledIn?_copied (h : c ≠ '%') (rest : Text) :
    t.filledIn? (c :: rest) = (t.filledIn? rest).map (c :: ·) := by
  rw [filledIn?]
  · intro hc
    exact absurd hc h
  · intro letter rest hc
    exact absurd hc h

/-- In the percent form of a pattern no percent sign stands for itself, so it
can be filled in. -/
theorem isSome_filledIn?_percentPattern (t : Timestamp) (pattern : Text) :
    (t.filledIn? (percentPattern pattern)).isSome := by
  fun_induction percentPattern pattern with
  | case8 c rest _ _ _ _ _ _ hpercent ih =>
      rw [filledIn?_copied hpercent, Option.isSome_map]
      exact ih
  | case9 => rfl
  | _ rest ih =>
      rw [filledIn?_field rfl, Option.isSome_map]
      exact ih

end FilledIn

/-- The timestamp by a pattern. -/
def format (t : Timestamp) (pattern : Text) : Text :=
  (t.filledIn? (percentPattern pattern)).get (t.isSome_filledIn?_percentPattern pattern)

end Timestamp

end RequestBook
