import RequestBook.Draws
import RequestBook.Text

/-!
# Unique identifiers

A random identifier has 128 bits of which six are fixed: four say that it is
random and two that it is laid out in the common way. It is written in
hexadecimal digits, in groups of eight, four, four, four and twelve.
-/

namespace RequestBook

namespace UniqueId

/-- The digit at a position: the version, the variant, or a drawn one. -/
def digitAt (bits position : Nat) : Char :=
  let drawn := bits >>> (4 * position) % 16
  if position = 12 then '4'
  else if position = 16 then Text.hexDigit (8 + drawn % 4)
  else Text.hexDigit drawn

/-- The identifier made from drawn bits. -/
def text (bits : Nat) : Text :=
  let group (first count : Nat) : Text := (List.range' first count).map (digitAt bits)
  Text.join ['-'] [group 0 8, group 8 4, group 12 4, group 16 4, group 20 12]

end UniqueId

end RequestBook
