import RequestBook.Proofs.Applying
import RequestBook.Proofs.Renumbering

/-!
# A part of a document and the same part alone

Some blocks in the middle of a document are, up to numbers, the blocks of the
document that their lines alone make (`read_excerpt`). They hang as they hang
there, with two exceptions. A block that finds no parent in its own part may
find one before it, which the part never sees. And blocks after the part may
hang below it (`Excerpt.children`), which for a part that ends where a section
begins is left to headings, and to headings not below a section
(`Excerpt.hangs_back`).
-/

namespace RequestBook

/-! ## Parts -/

/-- Where the first of some blocks begins, or the end of the lines. -/
def beginningOf (lines : List Text) (blocks : List Block) : Nat :=
  blocks.head?.elim lines.length (·.firstLine - 1)

/-- The lines from a block on, up to where some later blocks begin. -/
def linesFrom (lines : List Text) (first : Block) (after : List Block) : List Text :=
  (lines.take (beginningOf lines after)).drop (first.firstLine - 1)

/-- A part of a document beside the document that is made of the lines of the
part alone. -/
structure Excerpt (before own after part : List Block) (down up : Nat) : Prop where
  whole : Hung (before ++ own ++ after)
  alone : Hung part
  copied : own.map Block.bare = (part.map Block.bare).map (Block.moved down up)
  full : ∀ b ∈ part, b.lines ≠ []

theorem exists_turns_of_blocks {turns : List Turn} {before after : List Block} {b : Block}
    (h : turns.filterMap Turn.block? = before ++ b :: after) :
    ∃ earlier turn later, turns = earlier ++ turn :: later ∧
      earlier.filterMap Turn.block? = before ∧ turn.block? = some b ∧
      later.filterMap Turn.block? = after := by
  obtain ⟨earlier, rest, rfl, hearlier, hrest⟩ := List.filterMap_eq_append_iff.mp h
  obtain ⟨faults, turn, later, rfl, hfaults, hturn, hlater⟩ :=
    List.filterMap_eq_cons_iff.mp hrest
  refine ⟨earlier ++ faults, turn, later, by rw [List.append_assoc], ?_, hturn, hlater⟩
  rw [List.filterMap_append, hearlier, List.filterMap_eq_nil_iff.mpr hfaults,
    List.append_nil]

theorem Reading.block_place {lines : List Text} {position id : Nat} {turns : List Turn}
    (h : Reading lines position id turns) {turn : Turn} (hturn : turn ∈ turns) {b : Block}
    (hb : turn.block? = some b) : b.firstLine - 1 = turn.position ∧ b.id = turn.id := by
  obtain ⟨count, hextent, rfl⟩ := h.block_eq hturn (Turn.block?_eq_some.mp hb)
  obtain ⟨hpos, hcount⟩ := extent?_bounds hextent
  rw [firstLine_ofLines _ hpos hcount]
  exact ⟨rfl, rfl⟩

/-- The turns before some blocks end where the first of these begins. -/
theorem exists_turns_before {lines : List Text} {before after : List Block}
    (h : (Grammar.standard.read lines).blocks = before ++ after) :
    ∃ earlier later, Grammar.standard.turns lines = earlier ++ later ∧
      earlier.filterMap Turn.block? = before.map Block.bare ∧
      startOf lines later = beginningOf lines after := by
  have hturns := (read_spec lines).2
  rw [h, List.map_append] at hturns
  cases after with
  | nil =>
      rw [List.map_nil, List.append_nil] at hturns
      exact ⟨_, [], (List.append_nil _).symm, hturns.symm, rfl⟩
  | cons b after =>
      rw [List.map_cons] at hturns
      obtain ⟨earlier, turn, later, hsplit, hearlier, hturn, _⟩ :=
        exists_turns_of_blocks hturns.symm
      refine ⟨earlier, turn :: later, hsplit, hearlier, ?_⟩
      have hmem : turn ∈ Grammar.standard.turns lines :=
        hsplit ▸ List.mem_append_right _ List.mem_cons_self
      exact ((reading_turns lines).block_place hmem hturn).1.symm

theorem lines_ne_nil_of_mem {lines : List Text} {b : Block}
    (hb : b ∈ (Grammar.standard.read lines).blocks) : b.lines ≠ [] := by
  obtain ⟨_, count, _, hcount, _, hlines⟩ := (built_of_mem hb).run
  rw [hlines, Ne, List.range'_eq_nil_iff]
  omega

/-- The blocks of a document from one on are an excerpt beside the document
that their lines make. -/
theorem read_excerpt {lines : List Text} {before inside after : List Block} {first : Block}
    (h : (Grammar.standard.read lines).blocks = before ++ first :: inside ++ after) :
    Excerpt before (first :: inside) after
      (Grammar.standard.read (linesFrom lines first after)).blocks
      (first.firstLine - 1) (first.id - 1) := by
  obtain ⟨turns, later, hturns, hblocks, hstart⟩ := exists_turns_before h
  rw [List.map_append, List.map_cons] at hblocks
  obtain ⟨earlier, turn, own, rfl, _, hturn, hown⟩ := exists_turns_of_blocks hblocks
  have hreading := reading_turns lines
  rw [hturns] at hreading
  obtain ⟨hposition, hid⟩ := hreading.block_place
    (List.mem_append_left _ (List.mem_append_right _ List.mem_cons_self)) hturn
  have hbetween := hreading.between
  rw [hstart, ← hposition, ← hid] at hbetween
  refine ⟨h ▸ read_hung lines, read_hung _, ?_, fun b hb => ?_⟩
  · rw [(read_spec (linesFrom lines first after)).2, ← filterMap_block?_moved]
    have hall : (turn :: own).filterMap Turn.block? = first.bare :: inside.map Block.bare := by
      rw [List.filterMap_cons_some hturn, hown]
    rw [List.map_cons, ← hall, hbetween]
    rfl
  · exact lines_ne_nil_of_mem hb

/-! ## A part as it hangs -/

theorem scannedParent_moved (down up : Nat) (before : List Block) (b : Block) :
    scannedParent (before.map (Block.moved down up)) (b.moved down up) =
      (scannedParent before b).map (· + up) :=
  scannedParent_map (g := Block.moved down up) (fun _ => rfl) (fun _ => rfl) before b

namespace Excerpt

variable {before own after part : List Block} {down up i : Nat} {x y z : Block}
  (h : Excerpt before own after part down up)

include h

theorem length_eq : own.length = part.length := by
  simpa using congrArg List.length h.copied

theorem repeats (hx : own[i]? = some x) (hy : part[i]? = some y) : x.Repeats down up y := by
  have hbare : x.bare = y.bare.moved down up := by
    simpa [hx, hy] using congrArg (·[i]?) h.copied
  refine ⟨congrArg Block.id hbare, (congrArg Block.kind hbare :),
    (congrArg Block.content hbare :), ?_⟩
  have hlines : x.lines = y.lines.map (· + down) := congrArg Block.lines hbare
  rw [Block.firstLine, Block.firstLine, hlines]
  cases hy' : y.lines with
  | nil => exact absurd hy' (h.full y (List.mem_of_getElem? hy))
  | cons n rest => rfl

theorem exists_copy (hy : y ∈ part) :
    ∃ (i : Nat) (x : Block), own[i]? = some x ∧ part[i]? = some y ∧ x.Repeats down up y := by
  obtain ⟨i, hi⟩ := List.mem_iff_getElem?.mp hy
  have hlt : i < own.length := h.length_eq ▸ (List.getElem?_eq_some_iff.mp hi).1
  have hx := List.getElem?_eq_getElem hlt
  exact ⟨i, own[i], hx, hi, h.repeats hx hi⟩

omit h in
theorem mem_whole (hx : x ∈ own) : x ∈ before ++ own ++ after :=
  List.mem_append_left _ (List.mem_append_right _ hx)

/-- Numbers come in the order of the three parts. -/
theorem id_lt : (∀ b ∈ before, ∀ x ∈ own, b.id < x.id) ∧ ∀ x ∈ own, ∀ b ∈ after, x.id < b.id := by
  obtain ⟨hleft, _, hright⟩ := List.pairwise_append.mp h.whole.numbered
  obtain ⟨_, _, hmiddle⟩ := List.pairwise_append.mp hleft
  exact ⟨hmiddle, fun x hx b hb => hright x (List.mem_append_right _ hx) b hb⟩

/-- A block hangs as in the part alone, or else below a block before. -/
theorem parent_eq (hx : own[i]? = some x) (hy : part[i]? = some y) :
    x.parent = (y.parent.map (· + up)).or (scannedParent before x) := by
  have hlt := (List.getElem?_eq_some_iff.mp hx).1
  have hat : (before ++ own ++ after)[before.length + i]? = some x := by
    rw [List.append_assoc, List.getElem?_append_right (Nat.le_add_right _ _),
      Nat.add_sub_cancel_left, List.getElem?_append_left hlt, hx]
  have htake : (before ++ own ++ after).take (before.length + i) = before ++ own.take i := by
    rw [List.append_assoc, List.take_length_add_append,
      List.take_append_of_le_length (Nat.le_of_lt hlt)]
  have hsign : (own.take i).map Block.sign =
      ((part.take i).map (Block.moved down up)).map Block.sign := by
    have hall := congrArg (List.map Block.sign) (congrArg (List.take i) h.copied)
    simp only [← List.map_take, List.map_map] at hall ⊢
    exact hall
  rw [h.whole.parents _ _ hat, htake, scannedParent_append, h.alone.parents _ _ hy,
    ← scannedParent_moved down up]
  congr 1
  exact scannedParent_congr hsign (h.repeats hx hy).kind

theorem parent_iff (hx : own[i]? = some x) (hy : part[i]? = some y) (hz : z ∈ part) :
    x.parent = some (z.id + up) ↔ y.parent = some z.id := by
  rw [h.parent_eq hx hy]
  cases hparent : y.parent with
  | some p => simp
  | none =>
      rw [Option.map_none, Option.none_or]
      refine ⟨fun hscan => ?_, fun hno => by cases hno⟩
      obtain ⟨above, habove, hid, _⟩ := scannedParent_some hscan
      obtain ⟨_, copy, hcopy, _, hrep⟩ := h.exists_copy hz
      have := h.id_lt.1 above habove copy (List.mem_of_getElem? hcopy)
      have := hrep.id
      omega

/-- A block has the children that it has in the part alone, and behind them
those that come after the part. -/
theorem children_eq (hx : x ∈ own) (hy : y ∈ part) (hrep : x.Repeats down up y) :
    x.children = y.children.map (· + up) ++ below after x.id := by
  have hbefore : below before x.id = [] := by
    refine below_eq_nil fun b hb hparent => ?_
    have hmem : b ∈ before ++ own ++ after := List.mem_append_left _ (List.mem_append_left _ hb)
    obtain ⟨above, _, hid, hlt, _⟩ := h.whole.parent_lt hmem hparent
    have := h.id_lt.1 b hb x hx
    omega
  have hown : below own x.id = (below part y.id).map (· + up) := by
    rw [hrep.id]
    refine below_of_forall₂ (List.forall₂_iff_get.mpr ⟨h.length_eq, fun i hi hi' => ?_⟩)
    have hxi := List.getElem?_eq_getElem hi
    have hyi := List.getElem?_eq_getElem hi'
    exact ⟨(h.repeats hxi hyi).id, h.parent_iff hxi hyi hy⟩
  rw [h.whole.children x (mem_whole hx), below_append, below_append, hbefore, hown,
    List.nil_append, h.alone.children y hy]

/-- What hangs back into the part found no parent behind it. -/
theorem scanned_after {j : Nat} {b : Block} (hb : after[j]? = some b) (hx : x ∈ own)
    (hparent : b.parent = some x.id) : scannedParent (after.take j) b = none := by
  have hat : (before ++ own ++ after)[(before ++ own).length + j]? = some b := by
    rw [List.getElem?_append_right (Nat.le_add_right _ _), Nat.add_sub_cancel_left, hb]
  have hscan := h.whole.parents _ _ hat
  rw [List.take_length_add_append, scannedParent_append, hparent] at hscan
  cases hfound : scannedParent (after.take j) b with
  | none => rfl
  | some id =>
      rw [hfound, Option.some_or, Option.some.injEq] at hscan
      obtain ⟨above, habove, hid, _⟩ := scannedParent_some hfound
      have := h.id_lt.2 x hx above (List.mem_of_mem_take habove)
      omega

/-- When a section begins behind the part, only headings hang back into it, and
none below a section: the search for any other parent stops at that section. -/
theorem hangs_back
    (hafter : ∀ next, after.head? = some next → next.isHeadingAt sectionLevel = true)
    {b : Block} (hb : b ∈ after) (hx : x ∈ own) (hparent : b.parent = some x.id) :
    b.isHeading = true ∧ x.isHeadingAt sectionLevel = false := by
  have hbmem : b ∈ before ++ own ++ after := List.mem_append_right _ hb
  have hup : ∀ l, b.isHeadingAt l = true → 1 < l ∧ x.isHeadingAt (l - 1) = true :=
    fun l hl => h.whole.parent_level hbmem hl (mem_whole hx) hparent
  obtain ⟨j, hj⟩ := List.mem_iff_getElem?.mp hb
  have hnone := h.scanned_after hj hx hparent
  cases after with
  | nil => cases hb
  | cons next rest =>
      have hnext := hafter next rfl
      cases j with
      | zero =>
          cases hj
          refine ⟨isHeading_of_isHeadingAt hnext, ?_⟩
          have hone := (hup sectionLevel hnext).2
          exact Bool.eq_false_iff.mpr fun htwo => absurd (level_eq hone htwo) (by decide)
      | succ j =>
          have hmem : next ∈ (next :: rest).take (j + 1) := by
            rw [List.take_succ_cons]
            exact List.mem_cons_self
          have hheading : b.isHeading = true := by
            refine Bool.of_not_eq_false fun hno => ?_
            rw [scannedParent_of_plain _ hno, Option.map_eq_none_iff] at hnone
            have hplain := nearest?_none hnone hmem
            rw [isHeading_of_isHeadingAt hnext] at hplain
            cases hplain
          refine ⟨hheading, Bool.eq_false_iff.mpr fun htwo => ?_⟩
          obtain ⟨l, hl⟩ := exists_isHeadingAt hheading
          obtain ⟨hlt, hbelow⟩ := hup l hl
          have hthree : l = sectionLevel + 1 := by
            have := level_eq hbelow htwo
            omega
          rw [scannedParent_of_level _ (hthree ▸ hl) (by decide), Option.map_eq_none_iff] at hnone
          rw [nearest?_none hnone hmem] at hnext
          cases hnext

end Excerpt

end RequestBook
