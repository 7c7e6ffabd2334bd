import RequestBook.Text

/-!
# Regular expressions

From one place a pattern may match in several ways. A matcher that backtracks
comes upon them in an order of its own: a repetition goes on for as long as it
can and gives its characters back one by one, last first, whenever what follows
does not match. `ways` lists the ways in that order, so the match is the first
of them.

Every pattern that can be built here takes at least one character. A search
that goes on behind its last match therefore comes to an end.
-/

namespace RequestBook

/-- A pattern. -/
inductive Regex where
  /-- One character of a class. -/
  | one (accepts : Char → Bool)
  /-- Characters of a class, at least one and sooner more than fewer. -/
  | many (accepts : Char → Bool)
  /-- One pattern behind another. -/
  | andThen (first second : Regex)
  /-- A pattern whose text is wanted. -/
  | group (inner : Regex)

namespace Regex

/-- One way to match. A group is kept as two places: the text from its
beginning on, and the text behind it. -/
structure Match where
  groups : List (Text × Text)
  rest : Text
  deriving DecidableEq, Repr

/-- The pattern of one character. -/
def char (c : Char) : Regex := .one (· == c)

/-- What may be left after some characters of a class, the longest run first;
`shorter` is left after the runs met so far. -/
def restsAfter (accepts : Char → Bool) (shorter : List Text) : Text → List Text
  | [] => shorter
  | c :: t => if accepts c then restsAfter accepts (t :: shorter) t else shorter

/-- The ways to match where a text begins, in the order of preference. -/
def ways : Regex → Text → List Match
  | one _, [] => []
  | one accepts, c :: t => if accepts c then [⟨[], t⟩] else []
  | many accepts, t => (restsAfter accepts [] t).map fun rest => ⟨[], rest⟩
  | andThen first second, t =>
    (ways first t).flatMap fun m =>
      (ways second m.rest).map fun n => ⟨m.groups ++ n.groups, n.rest⟩
  | group inner, t => (ways inner t).map fun m => ⟨(t, m.rest) :: m.groups, m.rest⟩

/-- The match where a text begins. -/
def match? (r : Regex) (t : Text) : Option Match := (r.ways t).head?

/-- The text of a group, counted from zero. -/
def Match.text (m : Match) (index : Nat) : Text :=
  match m.groups[index]? with
  | some (start, behind) => start.take (start.length - behind.length)
  | none => []

theorem length_lt_of_mem_restsAfter {accepts : Char → Bool} {shorter : List Text} {bound : Nat}
    {t rest : Text} (hshorter : ∀ s ∈ shorter, s.length < bound) (ht : t.length ≤ bound)
    (h : rest ∈ restsAfter accepts shorter t) : rest.length < bound := by
  induction t generalizing shorter with
  | nil => exact hshorter rest h
  | cons c t ih =>
      rw [List.length_cons] at ht
      rw [restsAfter] at h
      split at h
      · refine ih ?_ (by omega) h
        intro s hs
        rcases List.mem_cons.mp hs with rfl | hs
        · omega
        · exact hshorter s hs
      · exact hshorter rest h

/-- A match takes at least one character. -/
theorem length_lt_of_mem_ways {r : Regex} {t : Text} {m : Match} (h : m ∈ r.ways t) :
    m.rest.length < t.length := by
  induction r generalizing t m with
  | one accepts =>
      cases t with
      | nil => cases h
      | cons c t =>
          rw [ways] at h
          split at h
          · rw [List.mem_singleton.mp h]
            exact Nat.lt_succ_self _
          · cases h
  | many accepts =>
      obtain ⟨rest, hrest, rfl⟩ := List.mem_map.mp h
      exact length_lt_of_mem_restsAfter (by simp) (Nat.le_refl _) hrest
  | andThen first second ihf ihs =>
      obtain ⟨a, ha, hm⟩ := List.mem_flatMap.mp h
      obtain ⟨b, hb, rfl⟩ := List.mem_map.mp hm
      have hsecond := ihs hb
      have hfirst := ihf ha
      simp only []
      omega
  | group inner ih =>
      obtain ⟨a, ha, rfl⟩ := List.mem_map.mp h
      have hinner := ih ha
      exact hinner

theorem length_lt_of_match? {r : Regex} {t : Text} {m : Match} (h : r.match? t = some m) :
    m.rest.length < t.length :=
  length_lt_of_mem_ways (List.mem_of_mem_head? h)

end Regex

end RequestBook
