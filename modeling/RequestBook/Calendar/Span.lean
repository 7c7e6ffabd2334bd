import RequestBook.Number.Word

/-!
# Spans of time

A span is a number of seconds and a part of a second. It is made from a
count of units that all have one length, and there is a limit to it: in
milliseconds it fits 64 bits, whichever way it goes, so the lowest number of
64 bits is no span. A count of longer units must fit 64 bits also when it is
turned into seconds, before the limit is looked at.
-/

namespace RequestBook

/-- A span of time, back when it is negative. Both parts have its sign. -/
structure Span where
  seconds : Int
  nanos : Int := 0
  deriving DecidableEq, Repr

namespace Span

/-- The longest span in milliseconds. -/
def longestMillis : Int := 0x7FFFFFFFFFFFFFFF

/-- The longest span in whole seconds. -/
def longestSeconds : Int := longestMillis / 1000

/-- The span of some milliseconds. -/
def ofMillis? (n : Int) : Option Span :=
  if -longestMillis ≤ n ∧ n ≤ longestMillis then
    some { seconds := n.tdiv 1000, nanos := n.tmod 1000 * 1000000 }
  else none

/-- The span of some seconds. -/
def ofSeconds? (n : Int) : Option Span :=
  if -longestSeconds ≤ n ∧ n ≤ longestSeconds then some { seconds := n } else none

/-- The span of a count of units that have some seconds each. -/
def ofUnits? (length n : Int) : Option Span :=
  if FitsWord (n * length) then ofSeconds? (n * length) else none

end Span

end RequestBook
