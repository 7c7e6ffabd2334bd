import RequestBook.Text

/-!
# Arguments

What a command can be told is its usage: switches, which are written with
dashes and may take a value, and slots, which take the plain arguments in
turn. The arguments are scanned once, from the left, into what they mention.
A lone pair of dashes makes all that follows plain.

A value that stands in an argument of its own is held back until something
else is known to follow it, and is dropped when what follows makes no sense.
So of two mistakes next to each other the later one is reported.
-/

namespace RequestBook

/-- The value that a switch takes. -/
structure SwitchValue where
  name : Text
  mayRepeat : Bool := false
  mayBeEmpty : Bool := true
  /-- What is wrong with a value. -/
  fault? : Text → Option Text := fun _ => none

/-- An option, written with two dashes and its name, or with one dash and its
letter. -/
structure Switch where
  name : Text
  letter : Option Char := none
  value : Option SwitchValue := none
  /-- Whether it is answered at once, whatever else is given. -/
  isQuestion : Bool := false
  about : Text

/-- A place for plain arguments. -/
structure Slot where
  name : Text
  mayRepeat : Bool := false
  mayBeLeftOut : Bool := false
  mayBeEmpty : Bool := true
  about : Text

/-- What a command can be told. Its subcommands end its own arguments. -/
structure Usage where
  command : Text
  about : Text
  subcommands : List (Text × Text) := []
  slots : List Slot := []
  switches : List Switch

/-- Why arguments make no sense. -/
inductive UsageError where
  | unexpected (argument : Text)
  | unexpectedValue (value switch : Text)
  | missingValue (place : Text)
  | invalidValue (value switch reason : Text)
  | repeated (switch : Text)
  | missing (slots : List Text)
  | noSubcommand (command : Text)
  | unknownSubcommand (name : Text)
  deriving DecidableEq, Repr

/-- The error in words. -/
def UsageError.message : UsageError → Text
  | unexpected argument => "unexpected argument '".toList ++ argument ++ "' found".toList
  | unexpectedValue value switch =>
    "unexpected value '".toList ++ value ++ "' for '".toList ++ switch
      ++ "' found; no more were expected".toList
  | missingValue place =>
    "a value is required for '".toList ++ place ++ "' but none was supplied".toList
  | invalidValue value switch reason =>
    "invalid value '".toList ++ value ++ "' for '".toList ++ switch ++ "': ".toList ++ reason
  | repeated switch =>
    "the argument '".toList ++ switch ++ "' cannot be used multiple times".toList
  | missing slots =>
    "the following required arguments were not provided:".toList
      ++ slots.flatMap fun slot => "\n  ".toList ++ slot
  | noSubcommand command =>
    ['\''] ++ command ++ "' requires a subcommand but one was not provided".toList
  | unknownSubcommand name => "unrecognized subcommand '".toList ++ name ++ ['\'']

/-- A switch as messages name it. -/
def Switch.label (s : Switch) : Text :=
  ['-', '-'] ++ s.name
    ++ (s.value.elim [] fun value => " <".toList ++ value.name ++ ['>'])

/-- A slot as messages name it. -/
def Slot.label (s : Slot) : Text :=
  (if s.mayBeLeftOut then ['['] ++ s.name ++ [']'] else ['<'] ++ s.name ++ ['>'])
    ++ (if s.mayRepeat then "...".toList else [])

/-! ## Scanning -/

/-- One thing that arguments say. -/
inductive Mention where
  | mark (switch : Switch)
  | setting (switch : Switch) (taken : SwitchValue) (value : Option Text)
  | plain (slot : Slot) (value : Text)

/-- What arguments say, up to the first that makes no sense or to a
subcommand, whose arguments are left. -/
structure Scan where
  mentions : List Mention := []
  fault : Option UsageError := none
  rest : Option (Text × List Text) := none

namespace Usage

/-- The switch of a name. -/
def named? (usage : Usage) (name : Text) : Option Switch :=
  usage.switches.find? (·.name == name)

/-- The switch of a letter. -/
def lettered? (usage : Usage) (letter : Char) : Option Switch :=
  usage.switches.find? (·.letter == some letter)

/-- Whether a name is that of a subcommand. -/
def isSubcommand (usage : Usage) (name : Text) : Bool :=
  usage.subcommands.any (·.1 == name)

/-- What is wrong with a plain argument that no slot takes. -/
def unexpectedPlain (usage : Usage) (dashed : Bool) (argument : Text) : UsageError :=
  if usage.subcommands.isEmpty || (dashed && usage.isSubcommand argument) then
    .unexpected argument
  else .unknownSubcommand argument

/-- The slots that are left after the first has taken an argument. -/
def slotsAfter : List Slot → List Slot
  | [] => []
  | slot :: rest => if slot.mayRepeat then slot :: rest else rest

/-- What switches in one argument say, each by its letter; the last may have
the rest of the argument as its value, or leave its value to come. -/
def scanLetters (usage : Usage) : Text → List Mention × Option Mention × Option UsageError
  | [] => ([], none, none)
  | c :: rest =>
    match usage.lettered? c with
    | none => ([], none, some (.unexpected ['-', c]))
    | some switch =>
      match switch.value with
      | none =>
        let (mentions, held, fault) := usage.scanLetters rest
        (.mark switch :: mentions, held, fault)
      | some taken =>
        match rest with
        | [] => ([], some (.setting switch taken none), none)
        | '=' :: value => ([.setting switch taken (some value)], none, none)
        | value => ([.setting switch taken (some value)], none, none)

/-- The name in an argument with two dashes, and the value behind an equals
sign. -/
def longParts? : Text → Option (Text × Option Text)
  | '-' :: '-' :: rest =>
    some (match Text.cut? ['='] rest with
      | some (name, value) => (name, some value)
      | none => (rest, none))
  | _ => none

/-- What plain arguments say. -/
def scanPlain (usage : Usage) (held : Option Mention) : List Slot → List Text → Scan
  | _, [] => { mentions := held.toList }
  | [], argument :: _ => { fault := some (usage.unexpectedPlain true argument) }
  | slot :: slots, argument :: rest =>
    let scan := usage.scanPlain (some (.plain slot argument)) (slotsAfter (slot :: slots)) rest
    { scan with mentions := held.toList ++ scan.mentions }

/-- What arguments say, given what is held back and which slots are left. -/
def scanFrom (usage : Usage) (held : Option Mention) (slots : List Slot) : List Text → Scan
  | [] => { mentions := held.toList }
  | argument :: rest =>
    let after (said : List Mention) (scan : Scan) : Scan :=
      { scan with mentions := held.toList ++ said ++ scan.mentions }
    if usage.isSubcommand argument then
      { mentions := held.toList, rest := some (argument, rest) }
    else if argument = ['-', '-'] then usage.scanPlain held slots rest
    else
      match longParts? argument with
      | some (name, attached) =>
        match usage.named? name with
        | none => { fault := some (.unexpected (['-', '-'] ++ name)) }
        | some switch =>
          match switch.value, attached with
          | none, some value => { fault := some (.unexpectedValue value switch.label) }
          | none, none => after [.mark switch] (usage.scanFrom none slots rest)
          | some taken, some value =>
            after [.setting switch taken (some value)] (usage.scanFrom none slots rest)
          | some taken, none =>
            after [] (usage.scanFrom (some (.setting switch taken none)) slots rest)
      | none =>
        match argument with
        | '-' :: c :: letters =>
          match usage.scanLetters (c :: letters) with
          | ([], none, fault) => { fault }
          | (mentions, _, some fault) =>
            { mentions := held.toList ++ mentions, fault := some fault }
          | (mentions, held, none) => after mentions (usage.scanFrom held slots rest)
        | _ =>
          match held with
          | some (.setting switch taken none) =>
            usage.scanFrom (some (.setting switch taken (some argument))) slots rest
          | _ =>
            match slots with
            | [] => { fault := some (usage.unexpectedPlain false argument) }
            | slot :: others =>
              after [] (usage.scanFrom (some (.plain slot argument))
                (slotsAfter (slot :: others)) rest)

/-- What arguments say. -/
def scan (usage : Usage) (arguments : List Text) : Scan :=
  usage.scanFrom none usage.slots arguments

end Usage

/-! ## Checking -/

/-- What the arguments of a command come to: marks, values and plain
arguments, in the order in which they were given. -/
structure Given where
  marks : List Text := []
  values : List (Text × Text) := []
  plains : List Text := []
  deriving DecidableEq, Repr

/-- Why the reading of arguments stops. -/
inductive Halt where
  | question (switch : Text)
  | mistake (error : UsageError)
  deriving DecidableEq, Repr

namespace Given

/-- Whether a switch was given. -/
def has (given : Given) (name : Text) : Bool := given.marks.contains name

/-- All values of a switch. -/
def valuesOf (given : Given) (name : Text) : List Text :=
  given.values.filterMap fun (key, value) => if key = name then some value else none

/-- What is given once one more thing is said. -/
def add (given : Given) : Mention → Except Halt Given
  | .mark switch =>
    if switch.isQuestion then .error (.question switch.name)
    else if given.has switch.name then .error (.mistake (.repeated switch.label))
    else .ok { given with marks := given.marks ++ [switch.name] }
  | .setting switch _ none => .error (.mistake (.missingValue switch.label))
  | .setting switch taken (some value) =>
    if !taken.mayRepeat && !(given.valuesOf switch.name).isEmpty then
      .error (.mistake (.repeated switch.label))
    else if value.isEmpty && !taken.mayBeEmpty then
      .error (.mistake (.missingValue switch.label))
    else
      match taken.fault? value with
      | some reason => .error (.mistake (.invalidValue value switch.label reason))
      | none => .ok { given with values := given.values ++ [(switch.name, value)] }
  | .plain slot value =>
    if value.isEmpty && !slot.mayBeEmpty then .error (.mistake (.missingValue slot.label))
    else .ok { given with plains := given.plains ++ [value] }

end Given

namespace Usage

/-- The slots that have to be filled and are not. -/
def unfilled (usage : Usage) (given : Given) : List Text :=
  ((usage.slots.drop given.plains.length).filter fun slot => !slot.mayBeLeftOut).map (·.label)

/-- What is given by arguments, and the subcommand with its own arguments if
one is among them. -/
def read (usage : Usage) (arguments : List Text) :
    Except Halt (Given × Option (Text × List Text)) := do
  let scan := usage.scan arguments
  let given ← scan.mentions.foldlM Given.add {}
  match scan.fault, scan.rest, usage.unfilled given with
  | some mistake, _, _ => throw (.mistake mistake)
  | none, some subcommand, _ => return (given, some subcommand)
  | none, none, [] => return (given, none)
  | none, none, slots => throw (.mistake (.missing slots))

end Usage

end RequestBook
