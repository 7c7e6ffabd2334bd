/-!
# Random draws

Where a value is made up, the number it is made from comes from outside. A
source of draws answers one number for each place, a place being a path of
positions from the whole task down to the single draw. Parts of a task get
branches of the source, so what one part draws does not hang on how much
another has drawn.
-/

namespace RequestBook

/-- A number for every place. -/
abbrev Draws := List Nat → Nat

namespace Draws

/-- The source for one part of a task. -/
def branch (draws : Draws) (part : Nat) : Draws := fun place => draws (part :: place)

/-- One draw of a part, below a bound that is not zero. -/
def below (draws : Draws) (part bound : Nat) : Nat := draws [part] % bound

/-- One step of a mixing function on 64 bits. -/
def mix (state : UInt64) : UInt64 :=
  let state := state + 0x9E3779B97F4A7C15
  let state := (state ^^^ (state >>> 30)) * 0xBF58476D1CE4E5B9
  let state := (state ^^^ (state >>> 27)) * 0x94D049BB133111EB
  state ^^^ (state >>> 31)

/-- A source made from a seed: every place is mixed into it, and each draw
has 128 bits. -/
def ofSeed (seed : Nat) : Draws := fun place =>
  let start := mix (UInt64.ofNat seed + mix (UInt64.ofNat (seed >>> 64)))
  let state := place.foldl (fun state part => mix (state + mix (UInt64.ofNat part))) start
  (mix state).toNat <<< 64 + (mix (state + 1)).toNat

end Draws

end RequestBook
