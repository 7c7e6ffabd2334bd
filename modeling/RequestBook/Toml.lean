import RequestBook.Number.Shortest
import RequestBook.Toml.Moment

/-!
# TOML values

A TOML document is a table. Whoever asks for a value asks for one of a type.
Of the types only one has a second reading: where a table is wanted, a moment
counts as one with a single entry, its text.
-/

namespace RequestBook

/-- A TOML value. -/
inductive Toml where
  | string (value : Text)
  | integer (value : Int)
  | float (value : Binary64)
  | boolean (value : Bool)
  | moment (value : Toml.Moment)
  | array (items : List Toml)
  | table (entries : List (Text × Toml))

namespace Toml

/-- Why a text is not the TOML that was asked for. -/
inductive Fault where
  | malformed
  | repeatedKey (key : Text)
  | outOfRange
  | tooDeep
  | wrongType (wanted : String)
  | missingKey (key : String)
  deriving DecidableEq, Repr

/-- The fault in words. -/
def Fault.message : Fault → Text
  | malformed => "invalid syntax".toList
  | repeatedKey key => "duplicate key ".toList ++ key
  | outOfRange => "number out of range".toList
  | tooDeep => "too many levels of nesting".toList
  | wrongType wanted => "expected ".toList ++ wanted.toList
  | missingKey key => "missing field ".toList ++ key.toList

/-! ## Values of one type -/

/-- The characters of a string. -/
def asText : Toml → Except Fault Text
  | string value => .ok value
  | _ => .error (.wrongType "a string")

/-- A truth value. -/
def asBool : Toml → Except Fault Bool
  | boolean value => .ok value
  | _ => .error (.wrongType "a boolean")

/-- An integer that counts something. -/
def asCount : Toml → Except Fault Nat
  | integer (.ofNat n) => .ok n
  | _ => .error (.wrongType "a number that is not negative")

/-- The items of an array. -/
def asItems : Toml → Except Fault (List Toml)
  | array items => .ok items
  | _ => .error (.wrongType "an array")

/-- The key under which a moment stands where a table is wanted. -/
def momentKey : Text := "$__toml_private_datetime".toList

/-- The entries of a table. A moment has one, its text. -/
def asEntries : Toml → Except Fault (List (Text × Toml))
  | table entries => .ok entries
  | moment value => .ok [(momentKey, .string value.text)]
  | _ => .error (.wrongType "a table")

/-- The texts of an array of strings. -/
def asTexts (t : Toml) : Except Fault (List Text) := do
  (← t.asItems).mapM asText

/-- The texts of a table of strings, by key. -/
def asTextEntries (t : Toml) : Except Fault (List (Text × Text)) := do
  (← t.asEntries).mapM fun (key, value) => do
    let value ← value.asText
    return (key, value)

end Toml

end RequestBook
