import RequestBook.Proofs.Accounting

/-!
# A reading moved and cut

What a construct takes is decided by the lines from its own on, and by no more
of them than it takes. Two things follow. A reading of some lines is a reading
of the same lines behind others, with every line number and every block number
moved by a constant (`Reading.moved`). And a reading may be cut where one of
its turns begins: the turns before it are those of the lines before it alone
(`Reading.cut`). The second one has something to prove for fences only: a fence
closed before the cut is closed by the same line, and one that is never closed
is not closed earlier when lines are taken away.
-/

namespace RequestBook

/-! ## Moved data -/

/-- A diagnostic some lines further down. -/
def Diagnostic.moved (down : Nat) (d : Diagnostic) : Diagnostic :=
  { d with line := d.line + down }

/-- A block some lines further down, among blocks with greater numbers. -/
def Block.moved (down up : Nat) (b : Block) : Block where
  id := b.id + up
  kind := b.kind
  content := b.content
  lines := b.lines.map (· + down)
  parent := b.parent.map (· + up)
  children := b.children.map (· + up)

/-- A turn some lines further down, with a greater number. -/
def Turn.moved (down up : Nat) (turn : Turn) : Turn where
  position := turn.position + down
  id := turn.id + up
  answer :=
    match turn.answer with
    | .ok b => .ok (b.moved down up)
    | .error d => .error (d.moved down)

theorem Block.ofLines_moved (down up position id : Nat) (taken : List Text) :
    (Block.ofLines position id taken).moved down up =
      Block.ofLines (position + down) (id + up) taken := by
  have hlines : (List.range' (position + 1) taken.length).map (· + down) =
      List.range' (position + down + 1) taken.length := by
    rw [List.map_congr_left fun n _ => Nat.add_comm n down, List.map_add_range']
    congr 1
    omega
  rw [Block.moved, Block.ofLines, Block.ofLines, hlines]
  rfl

theorem Turn.block?_moved (down up : Nat) (turn : Turn) :
    (turn.moved down up).block? = turn.block?.map (Block.moved down up) := by
  rw [Turn.block?, Turn.block?, Turn.moved]
  cases turn.answer <;> rfl

theorem filterMap_block?_moved (down up : Nat) (turns : List Turn) :
    (turns.map (Turn.moved down up)).filterMap Turn.block? =
      (turns.filterMap Turn.block?).map (Block.moved down up) := by
  rw [List.filterMap_map, List.map_filterMap]
  exact List.filterMap_congr fun turn _ => Turn.block?_moved down up turn

theorem Turn.diagnostic?_moved (down up : Nat) (turn : Turn) :
    (turn.moved down up).diagnostic? = turn.diagnostic?.map (Diagnostic.moved down) := by
  rw [Turn.diagnostic?, Turn.diagnostic?, Turn.moved]
  cases turn.answer <;> rfl

theorem filterMap_diagnostic?_moved (down up : Nat) (turns : List Turn) :
    (turns.map (Turn.moved down up)).filterMap Turn.diagnostic? =
      (turns.filterMap Turn.diagnostic?).map (Diagnostic.moved down) := by
  rw [List.filterMap_map, List.map_filterMap]
  exact List.filterMap_congr fun turn _ => Turn.diagnostic?_moved down up turn

/-! ## Behind other lines -/

/-- A reading behind other lines is the same reading, moved. -/
theorem Reading.moved {lines : List Text} {position id : Nat} {turns : List Turn}
    (h : Reading lines position id turns) (before : List Text) (up : Nat) :
    Reading (before ++ lines) (position + before.length) (id + up)
      (turns.map (Turn.moved before.length up)) := by
  have hget : ∀ {position : Nat} {line : Text}, lines[position]? = some line →
      (before ++ lines)[position + before.length]? = some line := by
    intro position line hline
    rw [List.getElem?_append_right (by omega), Nat.add_sub_cancel, hline]
  have hdrop : ∀ position : Nat,
      (before ++ lines).drop (position + before.length) = lines.drop position := by
    intro position
    rw [Nat.add_comm, List.drop_length_add_append]
  induction h with
  | done hend =>
      exact .done (by rw [List.length_append]; omega)
  | blank hline hblank rest ih =>
      refine .blank (hget hline) hblank ?_
      rw [Nat.add_right_comm]
      exact ih
  | @block position id count turns line hline hfull hextent rest ih =>
      rw [Nat.add_right_comm, Nat.add_right_comm id] at ih
      have hnext := Reading.block (hget hline) hfull (by rw [hdrop]; exact hextent) ih
      rw [hdrop, ← Block.ofLines_moved] at hnext
      exact hnext
  | @fault position id turns line hline hfull hextent rest ih =>
      rw [Nat.add_right_comm, Nat.add_right_comm id] at ih
      have hnext := Reading.fault (hget hline) hfull (by rw [hdrop]; exact hextent) ih
      rw [Nat.add_right_comm position] at hnext
      exact hnext

/-! ## Up to a turn -/

theorem extent?_take {left : List Text} {count n : Nat} (h : extent? left = some count)
    (hn : count ≤ n) : extent? (left.take n) = some count := by
  cases left with
  | nil => cases h
  | cons first rest =>
      obtain ⟨m, rfl⟩ : ∃ m, n = m + 1 := by
        have := (extent?_bounds h).1
        exact ⟨n - 1, by omega⟩
      rw [List.take_succ_cons]
      simp only [extent?] at h ⊢
      cases hs : Shape.of first with
      | heading =>
          rw [hs] at h
          exact h
      | quote =>
          simp only [hs, Option.some.injEq] at h ⊢
          rw [← List.take_takeWhile, List.length_take]
          omega
      | fence =>
          simp only [hs] at h ⊢
          rw [← List.take_takeWhile, List.length_take, List.length_take]
          split at h
          · next hlt =>
              rw [Option.some.injEq] at h
              rw [if_pos (by omega), Option.some.injEq]
              omega
          · cases h
      | paragraph =>
          simp only [hs, Option.some.injEq] at h ⊢
          rw [← List.take_takeWhile, List.length_take]
          omega

theorem extent?_take_none {left : List Text} {n : Nat} (h : extent? left = none)
    (hn : 0 < n) : extent? (left.take n) = none := by
  cases left with
  | nil => rw [List.take_nil]; rfl
  | cons first rest =>
      obtain ⟨m, rfl⟩ : ∃ m, n = m + 1 := ⟨n - 1, by omega⟩
      rw [extent?_eq_none_iff] at h
      rw [List.take_succ_cons, extent?_eq_none_iff]
      exact ⟨h.1, fun later hlater => h.2 later (List.mem_of_mem_take hlater)⟩

theorem getElem?_take_some {lines : List Text} {position stop : Nat} {line : Text}
    (hline : lines[position]? = some line) (hlt : position < stop) :
    (lines.take stop)[position]? = some line := by
  rw [List.getElem?_take_of_lt hlt, hline]

/-- A reading is cut where a turn begins: what comes before is a reading of
the lines before, and what comes from there on a reading of its own. -/
theorem Reading.cut {lines : List Text} {position id : Nat} {turns : List Turn}
    (h : Reading lines position id turns) {before after : List Turn} {turn : Turn}
    (hturns : turns = before ++ turn :: after) :
    Reading (lines.take turn.position) position id before ∧
      Reading lines turn.position turn.id (turn :: after) := by
  induction h generalizing before with
  | done hend => simp at hturns
  | @blank position id turns line hline hblank rest ih =>
      have hlt := (rest.mem (hturns ▸ List.mem_append_right _ List.mem_cons_self)).1
      obtain ⟨hbefore, hafter⟩ := ih hturns
      exact ⟨.blank (getElem?_take_some hline hlt) hblank hbefore, hafter⟩
  | @block position id count turns line hline hfull hextent rest ih =>
      cases before with
      | nil =>
          cases hturns
          exact ⟨.done (List.length_take_le _ _), .block hline hfull hextent rest⟩
      | cons first before =>
          rw [List.cons_append, List.cons.injEq] at hturns
          obtain ⟨rfl, htail⟩ := hturns
          have hle := (rest.mem (htail ▸ List.mem_append_right _ List.mem_cons_self)).1
          obtain ⟨hbefore, hafter⟩ := ih htail
          have hpos := (extent?_bounds hextent).1
          have hblock := Reading.block (getElem?_take_some hline (by omega)) hfull
            (by rw [List.drop_take]; exact extent?_take hextent (by omega)) hbefore
          rw [List.drop_take, List.take_take, Nat.min_eq_left (by omega)] at hblock
          exact ⟨hblock, hafter⟩
  | @fault position id turns line hline hfull hextent rest ih =>
      cases before with
      | nil =>
          cases hturns
          exact ⟨.done (List.length_take_le _ _), .fault hline hfull hextent rest⟩
      | cons first before =>
          rw [List.cons_append, List.cons.injEq] at hturns
          obtain ⟨rfl, htail⟩ := hturns
          have hle := (rest.mem (htail ▸ List.mem_append_right _ List.mem_cons_self)).1
          obtain ⟨hbefore, hafter⟩ := ih htail
          refine ⟨.fault (getElem?_take_some hline (by omega)) hfull ?_ hbefore, hafter⟩
          rw [List.drop_take]
          exact extent?_take_none hextent (by omega)

/-! ## Some turns in the middle -/

/-- Where the first of some turns stands, or the end of the lines. -/
def startOf (lines : List Text) (turns : List Turn) : Nat :=
  turns.head?.elim lines.length (·.position)

theorem Reading.upto {lines : List Text} {position id : Nat} {before after : List Turn}
    (h : Reading lines position id (before ++ after)) :
    Reading (lines.take (startOf lines after)) position id before := by
  cases after with
  | nil =>
      rw [List.append_nil] at h
      rw [startOf, List.head?_nil, Option.elim_none, List.take_length]
      exact h
  | cons turn after => exact (h.cut rfl).1

/-- The turns from one on and before some others are those that the lines
between them take when they are read alone. -/
theorem Reading.between {lines : List Text} {before inside after : List Turn} {turn : Turn}
    (h : Reading lines 0 1 (before ++ turn :: inside ++ after)) :
    turn :: inside =
      (Grammar.standard.turns ((lines.take (startOf lines after)).drop turn.position)).map
        (Turn.moved turn.position (turn.id - 1)) := by
  have hupto := h.upto
  obtain ⟨_, hid, ⟨_, hline, _⟩, _⟩ :=
    hupto.mem (List.mem_append_right before (List.mem_cons_self (a := turn) (l := inside)))
  have hown := (hupto.cut rfl).2
  generalize hall : lines.take (startOf lines after) = all at hown hline ⊢
  have hlen : (all.take turn.position).length = turn.position := by
    have := (List.getElem?_eq_some_iff.mp hline).1
    rw [List.length_take]
    omega
  have hmoved := (reading_turns (all.drop turn.position)).moved (all.take turn.position)
    (turn.id - 1)
  rw [List.take_append_drop, hlen, Nat.zero_add, Nat.add_sub_cancel' hid] at hmoved
  rw [reading_iff.mp hown, reading_iff.mp hmoved]

end RequestBook
