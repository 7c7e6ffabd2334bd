import RequestBook.Proofs.Blanking
import RequestBook.Proofs.Excerpt

/-!
# Reading is compositional at blank lines

A document without problems, an empty line and another document make the first
document followed by the second (`read_append`): the lines and the numbers of
the second are moved, and nothing else changes but what hangs below what. A
block of the second that hangs below no other hangs where a search through the
first finds a place, and a block of the first gets these as last children.

No construct comes across the empty line. A block of the first document has all
its lines there already, and the line behind them is its own or empty
(`extent?_of_agree`), so it takes no more. A fence that the first leaves open
would be the exception, since the second may close it; such a document has a
problem. The other way nothing reaches back, because what a block takes is
decided by the lines from its first one on.

Both documents are an `Excerpt` of the whole, and the blocks of an excerpt are
determined by those of its part (`Excerpt.own_eq`).
-/

namespace RequestBook

/-! ## Reading on behind a blank line -/

/-- A block ends before a blank line, whatever comes behind that. -/
theorem extent?_append_blank {left : List Text} {count : Nat} (h : extent? left = some count)
    {gap : Text} (hgap : Text.allBlank gap = true) (more : List Text) :
    (left ++ gap :: more).take count = left.take count ∧
      extent? (left ++ gap :: more) = some count := by
  have hcount := (extent?_bounds h).2
  have htake : (left ++ gap :: more).take count = left.take count :=
    List.take_append_of_le_length hcount
  refine ⟨htake, extent?_of_agree h htake fun line hline => ?_⟩
  rcases Nat.lt_or_ge count left.length with hlt | hge
  · rw [List.getElem?_append_left hlt] at hline
    exact .inr hline
  · rw [List.getElem?_append_right hge, Nat.sub_eq_zero_of_le hcount,
      List.getElem?_cons_zero, Option.some.injEq] at hline
    exact .inl (hline ▸ hgap)

/-- A reading without faults goes on behind a blank line with the next number.
-/
theorem Reading.append {lines : List Text} {position id : Nat} {turns : List Turn}
    (h : Reading lines position id turns) (hstart : position ≤ lines.length)
    (hclean : turns.filterMap Turn.diagnostic? = []) {gap : Text}
    (hgap : Text.allBlank gap = true) {more : List Text} {later : List Turn}
    (hlater : Reading (lines ++ gap :: more) (lines.length + 1) (id + turns.length) later) :
    Reading (lines ++ gap :: more) position id (turns ++ later) := by
  have hget : ∀ {position : Nat} {line : Text}, lines[position]? = some line →
      (lines ++ gap :: more)[position]? = some line := by
    intro position line hline
    rw [List.getElem?_append_left (List.getElem?_eq_some_iff.mp hline).1, hline]
  induction h with
  | done hend =>
      obtain rfl := Nat.le_antisymm hstart hend
      have hline : (lines ++ gap :: more)[lines.length]? = some gap := by simp
      exact .blank hline hgap hlater
  | blank hline hblank rest ih =>
      have hlt := (List.getElem?_eq_some_iff.mp hline).1
      exact .blank (hget hline) hblank (ih (by omega) hclean hlater)
  | @block position id count turns line hline hfull hextent rest ih =>
      have hlt := (List.getElem?_eq_some_iff.mp hline).1
      have hcount := (extent?_bounds hextent).2
      rw [List.length_drop] at hcount
      rw [List.filterMap_cons_none (by rfl)] at hclean
      rw [List.length_cons, Nat.add_comm turns.length, ← Nat.add_assoc] at hlater
      obtain ⟨htake, hstop⟩ := extent?_append_blank hextent hgap more
      rw [← List.drop_append_of_le_length hstart] at htake hstop
      have hnext := Reading.block (hget hline) hfull hstop (ih (by omega) hclean hlater)
      rw [htake] at hnext
      exact hnext
  | fault hline hfull hextent rest ih =>
      rw [List.filterMap_cons_some (by rfl)] at hclean
      cases hclean

/-- A turn makes a block or meets a problem. -/
theorem length_eq_of_turns (turns : List Turn) :
    turns.length = (turns.filterMap Turn.block?).length +
      (turns.filterMap Turn.diagnostic?).length := by
  induction turns with
  | nil => rfl
  | cons turn turns ih =>
      cases hanswer : turn.answer with
      | ok b =>
          rw [List.filterMap_cons_some (Turn.block?_eq_some.mpr hanswer),
            List.filterMap_cons_none (by rw [Turn.diagnostic?, hanswer]), List.length_cons,
            List.length_cons, ih]
          omega
      | error d =>
          rw [List.filterMap_cons_none (by rw [Turn.block?, hanswer]; rfl),
            List.filterMap_cons_some (Turn.diagnostic?_eq_some.mpr hanswer), List.length_cons,
            List.length_cons, ih]
          omega

/-- The turns over a document without problems, a blank line and another
document. -/
theorem turns_append {first : List Text}
    (hclean : (Grammar.standard.read first).diagnostics = []) {gap : Text}
    (hgap : Text.allBlank gap = true) (second : List Text) :
    Grammar.standard.turns (first ++ gap :: second) =
      Grammar.standard.turns first ++ (Grammar.standard.turns second).map
        (Turn.moved (first.length + 1) (Grammar.standard.read first).blocks.length) := by
  have hcount : (Grammar.standard.turns first).length =
      (Grammar.standard.read first).blocks.length := by
    have hlength := length_eq_of_turns (Grammar.standard.turns first)
    have hfaults : (Grammar.standard.turns first).filterMap Turn.diagnostic? = [] := hclean
    rw [hfaults, ← (read_spec first).2, List.length_map] at hlength
    exact hlength
  have hmoved := (reading_turns second).moved (first ++ [gap])
    (Grammar.standard.read first).blocks.length
  rw [List.append_assoc, List.singleton_append, List.length_append, List.length_singleton,
    Nat.zero_add, ← hcount] at hmoved
  have hall := (reading_turns first).append (Nat.zero_le _) hclean hgap hmoved
  rw [hcount] at hall
  exact (reading_iff.mp hall).symm

/-! ## The two documents in the whole -/

/-- The blocks of an excerpt are those of its part, moved. A block keeps its
parent, or gets one from before the part; behind its children come those of
the blocks after the part that hang below it. -/
theorem Excerpt.own_eq {before own after part : List Block} {down up : Nat}
    (h : Excerpt before own after part down up) :
    own = part.map fun b =>
      { b.moved down up with
        parent := (b.parent.map (· + up)).or (scannedParent before b)
        children := b.children.map (· + up) ++ below after (b.id + up) } := by
  refine List.ext_getElem (by rw [List.length_map, h.length_eq]) fun i hi hi' => ?_
  rw [List.length_map] at hi'
  rw [List.getElem_map]
  have hx := List.getElem?_eq_getElem hi
  have hy := List.getElem?_eq_getElem hi'
  have hrep := h.repeats hx hy
  have hbare : own[i].bare = part[i].bare.moved down up := by
    simpa [hx, hy] using congrArg (·[i]?) h.copied
  have hparent := h.parent_eq hx hy
  rw [scannedParent_congr rfl hrep.kind] at hparent
  have hchildren := h.children_eq (List.getElem_mem hi) (List.getElem_mem hi') hrep
  rw [hrep.id] at hchildren
  generalize own[i] = x at hbare hparent hchildren
  generalize part[i] = y at hbare hparent hchildren
  cases x
  simp only [Block.bare, Block.moved, Block.mk.injEq] at hbare hparent hchildren ⊢
  exact ⟨hbare.1, hbare.2.1, hbare.2.2.1, hbare.2.2.2.1, hparent, hchildren⟩

/-- A document and another one behind it. The blocks of the second get numbers
behind those of the first, and their lines are some lines further down. They
keep the parents that they have, and where they have none the nearest fitting
heading of the first document is taken. -/
def Outline.followedBy (first : Outline) (down : Nat) (second : Outline) : Outline :=
  let up := first.blocks.length
  let added := second.blocks.map fun b =>
    { b.moved down up with
      parent := (b.parent.map (· + up)).or (scannedParent first.blocks b) }
  { blocks := (first.blocks.map fun b =>
      { b with children := b.children ++ below added b.id }) ++ added
    diagnostics := first.diagnostics ++ second.diagnostics.map (Diagnostic.moved down) }

theorem Block.moved_zero (b : Block) : b.moved 0 0 = b := by
  simp [Block.moved]

/-- Both documents are excerpts of the whole. -/
theorem read_append_excerpts {first : List Text}
    (hclean : (Grammar.standard.read first).diagnostics = []) (second : List Text) :
    ∃ own added, (Grammar.standard.read (first ++ [] :: second)).blocks = own ++ added ∧
      Excerpt [] own added (Grammar.standard.read first).blocks 0 0 ∧
      Excerpt own added [] (Grammar.standard.read second).blocks (first.length + 1)
        (Grammar.standard.read first).blocks.length := by
  have hbare := (read_spec (first ++ [] :: second)).2
  rw [turns_append hclean rfl, List.filterMap_append, filterMap_block?_moved,
    ← (read_spec first).2, ← (read_spec second).2] at hbare
  obtain ⟨own, added, hblocks, hown, hadded⟩ := List.map_eq_append_iff.mp hbare
  have hung : Hung (own ++ added) := hblocks ▸ read_hung _
  refine ⟨own, added, hblocks, ⟨hung, read_hung _, ?_, fun b => lines_ne_nil_of_mem⟩,
    ⟨?_, read_hung _, hadded, fun b => lines_ne_nil_of_mem⟩⟩
  · rw [hown, funext Block.moved_zero, List.map_id']
  · rw [List.append_nil]
    exact hung

/-- A document without problems, an empty line and another document read as the
first document followed by the second. -/
theorem read_append {first : List Text}
    (hclean : (Grammar.standard.read first).diagnostics = []) (second : List Text) :
    Grammar.standard.read (first ++ [] :: second) =
      (Grammar.standard.read first).followedBy (first.length + 1)
        (Grammar.standard.read second) := by
  obtain ⟨own, added, hblocks, hfirst, hsecond⟩ := read_append_excerpts hclean second
  have hown : own = (Grammar.standard.read first).blocks.map fun b =>
      { b with children := b.children ++ below added b.id } := by
    rw [hfirst.own_eq]
    refine List.map_congr_left fun b _ => ?_
    simp [Block.moved, scannedParent_nil]
  have hsign : own.map Block.sign = (Grammar.standard.read first).blocks.map Block.sign := by
    rw [hown, List.map_map]
    rfl
  have hadded : added = (Grammar.standard.read second).blocks.map fun b =>
      { b.moved (first.length + 1) (Grammar.standard.read first).blocks.length with
        parent := (b.parent.map (· + (Grammar.standard.read first).blocks.length)).or
          (scannedParent (Grammar.standard.read first).blocks b) } := by
    rw [hsecond.own_eq]
    refine List.map_congr_left fun b _ => ?_
    rw [scannedParent_congr hsign rfl]
    simp [Block.moved, below]
  have hfaults : (Grammar.standard.read (first ++ [] :: second)).diagnostics =
      (Grammar.standard.read second).diagnostics.map (Diagnostic.moved (first.length + 1)) := by
    have hnone : (Grammar.standard.turns first).filterMap Turn.diagnostic? = [] := hclean
    rw [Grammar.read, turns_append hclean rfl]
    simp only [List.filterMap_append, hnone, List.nil_append]
    exact filterMap_diagnostic?_moved _ _ _
  rw [Outline.followedBy, hclean, List.nil_append, ← hadded, ← hown, ← hblocks, ← hfaults]

/-- Behind a heading and a fence with an empty line come a quote, which hangs
back, an open fence and a heading that hangs back below the first title. -/
theorem read_append_hanging_back :
    let first : List Text :=
      ["# A", "## B", "\x60\x60\x60json", "", "\x60\x60\x60"].map String.toList
    let second : List Text := ["> q", "\x60\x60\x60", "## C", "p"].map String.toList
    (Grammar.standard.read first).diagnostics = [] ∧
      Grammar.standard.read (first ++ [] :: second) =
        ⟨[⟨1, .heading 1 1, "A".toList, [1], none, [2, 6]⟩,
          ⟨2, .heading 2 1, "B".toList, [2], some 1, [3, 4]⟩,
          ⟨3, .fence "json".toList, [], [3, 4, 5], some 2, []⟩,
          ⟨4, .quote, "q".toList, [7], some 2, []⟩,
          ⟨6, .heading 2 1, "C".toList, [9], some 1, [7]⟩,
          ⟨7, .paragraph, "p".toList, [10], some 6, []⟩],
          [⟨.unterminatedFence, 8⟩]⟩ ∧
      Grammar.standard.read (first ++ [] :: second) =
        (Grammar.standard.read first).followedBy (first.length + 1)
          (Grammar.standard.read second) := by
  intro first second
  have hclean : (Grammar.standard.read first).diagnostics = [] := by decide +kernel
  exact ⟨hclean, by decide +kernel, read_append hclean second⟩

end RequestBook
