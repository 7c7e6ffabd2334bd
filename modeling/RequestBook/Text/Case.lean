import RequestBook.Text
import RequestBook.Text.CaseTable

/-!
# Small and capital forms of a text

Both forms are Unicode's full mappings: one character may become several.
Only one of them looks at its neighbours. A capital sigma becomes the final
small sigma at the end of a word, which is where a letter stands before it
and none after it, characters that case rules pass over not counted.
-/

namespace RequestBook.Text

/-- The image of one character under a table of runs and a table of texts. -/
def mapCase (runs : List CaseRun) (texts : List (Nat × List Nat)) (c : Char) : Text :=
  match texts.lookup c.toNat with
  | some image => image.map Char.ofNat
  | none =>
    match runs.find? (·.covers c.toNat) with
    | some run => [Char.ofNat (run.image c.toNat)]
    | none => [c]

/-- Whether a letter with case is the first to come, ignorable ones skipped. -/
def meetsCased (t : Text) : Bool :=
  match t.dropWhile fun c => inRanges caseIgnorableRanges c.toNat with
  | [] => false
  | c :: _ => inRanges casedRanges c.toNat

/-- The small form of one character between what stands before it, nearest
first, and what stands after it. -/
def lowerChar (before : Text) (c : Char) (rest : Text) : Text :=
  if c = 'Σ' then
    if meetsCased before && !meetsCased rest then ['ς'] else ['σ']
  else mapCase lowerRuns lowerTexts c

/-- The small form of what is left, given what has been passed. -/
def lowerFrom (before : Text) : Text → Text
  | [] => []
  | c :: rest => lowerChar before c rest ++ lowerFrom (c :: before) rest

/-- The text in small letters. -/
def lower (t : Text) : Text := lowerFrom [] t

/-- The text in capitals. -/
def upper (t : Text) : Text := t.flatMap (mapCase upperRuns upperTexts)

/-- The small form of one ASCII capital; every other character stays. -/
def lowerAscii (c : Char) : Char :=
  if 'A' ≤ c && c ≤ 'Z' then Char.ofNat (c.toNat + 32) else c

end RequestBook.Text
