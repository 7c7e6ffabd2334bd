import RequestBook.Text.Regex

/-!
# Placeholders

A placeholder is two opening braces, a text without a closing brace, and two
closing braces. A text is cut into its placeholders and the characters
between them from the left: where a placeholder begins it is taken whole,
and anywhere else one character is. Opening braces may stand inside a
placeholder, so of several in a row the first two count.
-/

namespace RequestBook

/-- A piece of a text with placeholders. -/
inductive Piece where
  | plain (c : Char)
  | placeholder (body : Text)
  deriving DecidableEq, Repr

/-- What a placeholder begins with. -/
def openingBraces : Text := ['\x7b', '\x7b']

/-- What a placeholder ends with. -/
def closingBraces : Text := ['\x7d', '\x7d']

namespace Piece

/-- The pattern of a placeholder. Its one group is the body. -/
def pattern : Regex :=
  .andThen (.char '\x7b') (.andThen (.char '\x7b')
    (.andThen (.group (.many (· ≠ '\x7d')))
      (.andThen (.char '\x7d') (.char '\x7d'))))

/-- The piece as it is written. -/
def written : Piece → Text
  | plain c => [c]
  | placeholder body => openingBraces ++ body ++ closingBraces

/-- The body of the placeholder that begins here, and the text after it. -/
def head? (t : Text) : Option (Text × Text) :=
  (pattern.match? t).map fun m => (m.text 0, m.rest)

/-- Taking a placeholder off leaves less text. -/
theorem length_lt_of_head? {t body after : Text} (h : head? t = some (body, after)) :
    after.length < t.length := by
  obtain ⟨m, hm, hpair⟩ := Option.map_eq_some_iff.mp h
  cases hpair
  exact Regex.length_lt_of_match? hm

end Piece

/-- The pieces of a text. -/
def pieces (t : Text) : List Piece :=
  match h : Piece.head? t with
  | some (body, after) =>
    have := Piece.length_lt_of_head? h
    .placeholder body :: pieces after
  | none =>
    match t with
    | [] => []
    | c :: rest => .plain c :: pieces rest
termination_by t.length

end RequestBook
