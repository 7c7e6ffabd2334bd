import RequestBook.Text

/-!
# Paths

A path leads from a place to another in steps with a slash between them. An
empty step and a lone dot lead nowhere, and two dots lead back. The last
step names a file, and what follows the last dot of that name says of which
kind the file is.
-/

namespace RequestBook.Path

/-! ## Steps -/

/-- A step that leads nowhere. -/
def isIdle (step : Text) : Bool := step.isEmpty || step == ['.']

/-- The step of an absolute path to the place where all files are. -/
def top : Text := ['/']

/-- The steps of a path that lead somewhere. -/
def steps (path : Text) : List Text :=
  let named := (Text.fields '/' path).filter fun step => !isIdle step
  if path.head? = some '/' then top :: named else named

/-- The step back. -/
def back : Text := ['.', '.']

/-- One step from a place that is told by the steps that lead to it. There
is no way back from the top, and the way back from where a path begins is
not known by another name. -/
def follow (here : List Text) (step : Text) : List Text :=
  if step = back then
    match here.getLast? with
    | none => [back]
    | some last =>
      if last = back then here ++ [back] else if last = top then here else here.dropLast
  else here ++ [step]

/-- The places that some steps lead through, from the first to the last. -/
def placesFrom (here : List Text) : List Text → List (List Text)
  | [] => [here]
  | step :: rest => here :: placesFrom (follow here step) rest

/-- The places that a path leads through: where it begins first, and where
it leads last. -/
def places (path : Text) : List (List Text) := placesFrom [] (steps path)

/-- Whether the form of a path allows only a folder at its end. -/
def asksForFolder (path : Text) : Bool :=
  (Text.fields '/' path).getLast?.any isIdle

/-! ## Names -/

/-- The name of the file that a path leads to. -/
def fileName? (path : Text) : Option Text :=
  match (steps path).getLast? with
  | none => none
  | some step => if step = back || step = top then none else some step

/-- A name as its stem and its extension: what stands before and behind the
last dot. A dot that comes first parts nothing. -/
def splitName (name : Text) : Text × Option Text :=
  match Text.cut? ['.'] name.reverse with
  | some (extension, stem) =>
    if stem.isEmpty then (name, none) else (stem.reverse, some extension.reverse)
  | none => (name, none)

/-- The extension of the file name of a path; nothing when there is none. -/
def extension (path : Text) : Text :=
  ((fileName? path).bind fun name => (splitName name).2).getD []

/-- The file name of a path without its extension. -/
def stem? (path : Text) : Option Text := (fileName? path).map fun name => (splitName name).1

/-! ## Folders -/

/-- The steps of a path as they are written, without those at the end that
lead nowhere. The first is kept whatever it is. -/
def writtenSteps (path : Text) : List Text :=
  match Text.fields '/' path with
  | [] => []
  | first :: rest => first :: (rest.reverse.dropWhile isIdle).reverse

/-- The path to the folder in which a path ends, unless it has no end. -/
def parent? (path : Text) : Option Text :=
  match writtenSteps path with
  | [] => none
  | [first] => if first.isEmpty then none else some []
  | pieces =>
    let above := writtenSteps (Text.join ['/'] pieces.dropLast)
    some (if above = [[]] then top else Text.join ['/'] above)

/-- The path to a name in a folder. -/
def inFolder (folder name : Text) : Text :=
  if folder.isEmpty || Text.endsWith ['/'] folder then folder ++ name
  else folder ++ ['/'] ++ name

end RequestBook.Path
