import Mathlib.Data.List.Pairwise
import RequestBook.Proofs.Linking
import RequestBook.Proofs.Reading

/-!
# Every line is accounted for

A document says of each line what became of it: the line is one of the lines
of a block, or a diagnostic names it, or it is blank. No line has two of these
fates, blocks and diagnostics come in the order of their lines, and a block is
made of its lines and of nothing else. `Outline.AccountsFor` is all of this,
and it holds of whatever the standard grammar reads.

The invariant of the proof is about the turns of a reading and not about the
document: the lines of all turns together increase and lie behind the position
that has been reached. The fence that is never closed is the case to look at,
since reading goes back behind its first line; it costs one line and no more.
-/

namespace RequestBook

/-! ## Lines by number -/

/-- The line with a number, counted from one. -/
def lineNumbered? (lines : List Text) : (number : Nat) → Option Text
  | 0 => none
  | n + 1 => lines[n]?

/-- The lines with some numbers. -/
def linesNumbered (lines : List Text) (numbers : List Nat) : List Text :=
  numbers.filterMap (lineNumbered? lines)

theorem linesNumbered_range' (lines : List Text) (position count : Nat) :
    linesNumbered lines (List.range' (position + 1) count) =
      (lines.drop position).take count := by
  induction count generalizing position with
  | zero => simp [linesNumbered]
  | succ count ih =>
      rw [List.range'_succ, linesNumbered, List.filterMap_cons, ← linesNumbered, ih,
        lineNumbered?]
      rcases Nat.lt_or_ge position lines.length with hlt | hge
      · rw [List.getElem?_eq_getElem hlt, List.drop_eq_getElem_cons hlt, List.take_succ_cons]
      · rw [List.getElem?_eq_none hge, List.drop_eq_nil_of_le hge,
          List.drop_eq_nil_of_le (by omega), List.take_nil, List.take_nil]

/-! ## What is to hold -/

/-- A block is built from a run of lines. The first of them alone gives its
kind, all of them and no other give its text, and they go as far as the rule
of that kind takes them. -/
structure Block.BuiltFrom (lines : List Text) (b : Block) : Prop where
  run : ∃ first count, 0 < first ∧ 0 < count ∧ first + count ≤ lines.length + 1 ∧
    b.lines = List.range' first count
  kind : ∃ first, lineNumbered? lines b.firstLine = some first ∧
    Text.allBlank first = false ∧ b.kind = kindFrom first
  content : b.content = contentFrom (linesNumbered lines b.lines)
  extent : extent? (lines.drop (b.firstLine - 1)) = some b.lines.length

/-- A diagnostic names a line that opens a fence, with no closing line after
it. -/
structure Diagnostic.NamesOpenFence (lines : List Text) (d : Diagnostic) : Prop where
  problem : d.problem = .unterminatedFence
  opens : ∃ first, lineNumbered? lines d.line = some first ∧ Shape.of first = .fence
  unclosed : ∀ number later, d.line < number → lineNumbered? lines number = some later →
    Text.trim later ≠ fenceMark

/-- The lines that a turn answers for. -/
def Turn.lines (turn : Turn) : List Nat :=
  match turn.answer with
  | .ok block => block.lines
  | .error diagnostic => [diagnostic.line]

/-- A document accounts for the lines it was read from. -/
structure Outline.AccountsFor (lines : List Text) (outline : Outline) : Prop where
  built : ∀ b ∈ outline.blocks, b.BuiltFrom lines
  faults : ∀ d ∈ outline.diagnostics, d.NamesOpenFence lines
  blocks_increase : outline.blocks.Pairwise fun a b => ∀ m ∈ a.lines, ∀ n ∈ b.lines, m < n
  faults_increase : outline.diagnostics.Pairwise fun a b => a.line < b.line
  apart : ∀ b ∈ outline.blocks, ∀ d ∈ outline.diagnostics, d.line ∉ b.lines
  left_out : ∀ number line, lineNumbered? lines number = some line →
    (∀ b ∈ outline.blocks, number ∉ b.lines) →
    (∀ d ∈ outline.diagnostics, d.line ≠ number) → Text.trim line = []

/-! ## The lines of a reading -/

section Lines

variable {lines : List Text} {position id : Nat} {turns : List Turn}

/-- The invariant of a reading: its lines increase, and all of them lie behind
its position. -/
theorem Reading.lines_increase (h : Reading lines position id turns) :
    (turns.flatMap Turn.lines).Pairwise (· < ·) ∧
      ∀ n ∈ turns.flatMap Turn.lines, position < n := by
  induction h with
  | done hend => simp
  | blank hline hblank rest ih =>
      exact ⟨ih.1, fun n hn => by have := ih.2 n hn; omega⟩
  | @block position id count turns line hline hfull hextent rest ih =>
      have hbounds := extent?_bounds hextent
      have hlines : Turn.lines ⟨position, id,
          .ok (.ofLines position id ((lines.drop position).take count))⟩ =
          List.range' (position + 1) count := by
        simp only [Turn.lines, Block.ofLines, List.length_take, Nat.min_eq_left hbounds.2]
      rw [List.flatMap_cons, hlines]
      refine ⟨List.pairwise_append.mpr ⟨List.pairwise_lt_range', ih.1, ?_⟩, ?_⟩
      · intro m hm n hn
        have := (List.mem_range'_1.mp hm).2
        have := ih.2 n hn
        omega
      · intro n hn
        rcases List.mem_append.mp hn with hn | hn
        · exact (List.mem_range'_1.mp hn).1
        · have := ih.2 n hn
          omega
  | @fault position id turns line hline hfull hextent rest ih =>
      rw [List.flatMap_cons, Turn.lines, List.singleton_append]
      refine ⟨List.pairwise_cons.mpr ⟨fun n hn => ih.2 n hn, ih.1⟩, fun n hn => ?_⟩
      rcases List.mem_cons.mp hn with rfl | hn
      · exact Nat.lt_succ_self position
      · have := ih.2 n hn
        omega

/-- A line behind the position that no turn answers for is blank. -/
theorem Reading.left_out (h : Reading lines position id turns) {number : Nat} {line : Text}
    (hbehind : position < number) (hline : lineNumbered? lines number = some line)
    (hout : number ∉ turns.flatMap Turn.lines) : Text.allBlank line = true := by
  obtain ⟨n, rfl⟩ : ∃ n, number = n + 1 := ⟨number - 1, by omega⟩
  rw [lineNumbered?] at hline
  induction h with
  | done hend =>
      have := (List.getElem?_eq_some_iff.mp hline).1
      omega
  | @blank position id turns first hfirst hblank rest ih =>
      by_cases hn : n = position
      · rw [hn, hfirst, Option.some.injEq] at hline
        exact hline ▸ hblank
      · exact ih (by omega) hout
  | @block position id count turns first hfirst hfull hextent rest ih =>
      rw [List.flatMap_cons, List.mem_append, not_or] at hout
      refine ih ?_ hout.2
      have hown := hout.1
      simp only [Turn.lines, Block.ofLines, List.length_take,
        Nat.min_eq_left (extent?_bounds hextent).2, List.mem_range'_1, not_and,
        Nat.not_lt] at hown
      have := hown (by omega)
      omega
  | @fault position id turns first hfirst hfull hextent rest ih =>
      rw [List.flatMap_cons, List.mem_append, not_or] at hout
      refine ih ?_ hout.2
      have hown : n + 1 ≠ position + 1 := fun h => hout.1 (h ▸ List.mem_singleton_self _)
      omega

theorem lines_ofLines (id : Nat) {count : Nat} (hcount : count ≤ (lines.drop position).length) :
    (Block.ofLines position id ((lines.drop position).take count)).lines =
      List.range' (position + 1) count := by
  rw [Block.ofLines, List.length_take, Nat.min_eq_left hcount]

theorem firstLine_ofLines (id : Nat) {count : Nat} (hpos : 0 < count)
    (hcount : count ≤ (lines.drop position).length) :
    (Block.ofLines position id ((lines.drop position).take count)).firstLine =
      position + 1 := by
  obtain ⟨rest, rfl⟩ : ∃ rest, count = rest + 1 := ⟨count - 1, by omega⟩
  rw [Block.firstLine, lines_ofLines id hcount, List.range'_succ, List.headD_cons]

theorem builtFrom_ofLines (id : Nat) {first : Text} {count : Nat}
    (hfirst : lines[position]? = some first) (hfull : Text.allBlank first = false)
    (hextent : extent? (lines.drop position) = some count) :
    (Block.ofLines position id ((lines.drop position).take count)).BuiltFrom lines := by
  obtain ⟨hpos, hcount⟩ := extent?_bounds hextent
  have hlines := lines_ofLines id hcount
  have hline := firstLine_ofLines id hpos hcount
  refine ⟨⟨position + 1, count, by omega, hpos, ?_, hlines⟩, ⟨first, ?_, hfull, ?_⟩, ?_, ?_⟩
  · rw [List.length_drop] at hcount
    omega
  · rw [hline, lineNumbered?, hfirst]
  · have hhead : ((lines.drop position).take count).head? = some first := by
      rw [List.head?_take, if_neg (by omega), List.head?_drop, hfirst]
    rw [Block.ofLines, List.headD_eq_head?_getD, hhead, Option.getD_some]
  · rw [hlines, linesNumbered_range', Block.ofLines]
  · rw [hline, hlines, List.length_range', Nat.add_sub_cancel, hextent]

theorem namesOpenFence {first : Text} (hfirst : lines[position]? = some first)
    (hextent : extent? (lines.drop position) = none) :
    Diagnostic.NamesOpenFence lines ⟨.unterminatedFence, position + 1⟩ := by
  obtain ⟨hlt, rfl⟩ := List.getElem?_eq_some_iff.mp hfirst
  rw [List.drop_eq_getElem_cons hlt, extent?_eq_none_iff] at hextent
  refine ⟨rfl, ⟨_, by rw [lineNumbered?, hfirst], hextent.1⟩, ?_⟩
  intro number later hafter hlater hmark
  simp only [] at hafter
  obtain ⟨n, rfl⟩ : ∃ n, number = position + 1 + n + 1 := ⟨number - position - 2, by omega⟩
  rw [lineNumbered?, ← List.getElem?_drop] at hlater
  have hno := hextent.2 later (List.mem_of_getElem? hlater)
  rw [isFenceEnd, hmark, beq_self_eq_true] at hno
  cases hno

/-- The numbers of the blocks of a reading increase, from its own number on. -/
theorem Reading.numbered (h : Reading lines position id turns) :
    Numbered (turns.filterMap Turn.block?) ∧
      ∀ b ∈ turns.filterMap Turn.block?, id ≤ b.id := by
  induction h with
  | done hend => exact ⟨List.Pairwise.nil, by simp⟩
  | blank hline hblank rest ih => exact ih
  | @block position id count turns line hline hfull hextent rest ih =>
      rw [List.filterMap_cons_some (by rfl)]
      refine ⟨List.pairwise_cons.mpr ⟨fun b hb => ih.2 b hb, ih.1⟩, ?_⟩
      intro b hb
      rcases List.mem_cons.mp hb with rfl | hb
      · exact Nat.le_refl _
      · have := ih.2 b hb
        omega
  | @fault position id turns line hline hfull hextent rest ih =>
      rw [List.filterMap_cons_none (by rfl)]
      exact ⟨ih.1, fun b hb => by have := ih.2 b hb; omega⟩

theorem fresh_ofLines (taken : List Text) : (Block.ofLines position id taken).Fresh where
  parent := rfl
  children := rfl
  order level order h := by
    rw [Block.ofLines, kindFrom] at h
    simp only [] at h
    split at h <;> cases h
    rfl

end Lines

/-! ## Documents -/

theorem Turn.block?_eq_some {turn : Turn} {b : Block} :
    turn.block? = some b ↔ turn.answer = .ok b := by
  rw [Turn.block?]
  cases turn.answer <;> simp [Except.toOption]

theorem Turn.diagnostic?_eq_some {turn : Turn} {d : Diagnostic} :
    turn.diagnostic? = some d ↔ turn.answer = .error d := by
  rw [Turn.diagnostic?]
  cases turn.answer <;> simp

theorem reading_turns (lines : List Text) :
    Reading lines 0 1 (Grammar.standard.turns lines) :=
  reading_turnsFrom lines 0 1

/-- The blocks of a document are hung, and they are the blocks that the turns
made. -/
theorem read_spec (lines : List Text) :
    Hung (Grammar.standard.read lines).blocks ∧
      (Grammar.standard.read lines).blocks.map Block.bare =
        (Grammar.standard.turns lines).filterMap Turn.block? := by
  have hreading := reading_turns lines
  refine linked_spec ?_ hreading.numbered.1
  intro b hb
  obtain ⟨turn, hturn, hblock⟩ := List.mem_filterMap.mp hb
  obtain ⟨count, _, rfl⟩ := hreading.block_eq hturn (Turn.block?_eq_some.mp hblock)
  exact fresh_ofLines _

theorem read_hung (lines : List Text) : Hung (Grammar.standard.read lines).blocks :=
  (read_spec lines).1

/-- A block of a document was made by one of the turns. -/
theorem exists_turn_of_mem_blocks {lines : List Text} {b : Block}
    (hb : b ∈ (Grammar.standard.read lines).blocks) :
    ∃ turn ∈ Grammar.standard.turns lines, turn.answer = .ok b.bare := by
  have hmem : b.bare ∈ (Grammar.standard.turns lines).filterMap Turn.block? :=
    (read_spec lines).2 ▸ List.mem_map_of_mem hb
  obtain ⟨turn, hturn, hblock⟩ := List.mem_filterMap.mp hmem
  exact ⟨turn, hturn, Turn.block?_eq_some.mp hblock⟩

/-- The turns of a document, two by two: the lines of the earlier one come
before those of the later one. -/
theorem turns_increase (lines : List Text) :
    (Grammar.standard.turns lines).Pairwise fun s t =>
      ∀ m ∈ s.lines, ∀ n ∈ t.lines, m < n :=
  (List.pairwise_flatMap.mp (reading_turns lines).lines_increase.1).2

theorem Turn.lines_of_ok {turn : Turn} {b : Block} (h : turn.answer = .ok b) :
    turn.lines = b.lines := by
  rw [Turn.lines, h]

theorem Turn.lines_of_error {turn : Turn} {d : Diagnostic} (h : turn.answer = .error d) :
    turn.lines = [d.line] := by
  rw [Turn.lines, h]

theorem built_of_mem {lines : List Text} {b : Block}
    (hb : b ∈ (Grammar.standard.read lines).blocks) : b.BuiltFrom lines := by
  obtain ⟨turn, hturn, hanswer⟩ := exists_turn_of_mem_blocks hb
  obtain ⟨_, _, ⟨first, hfirst, hfull⟩, _⟩ := (reading_turns lines).mem hturn
  obtain ⟨count, hextent, hbare⟩ := (reading_turns lines).block_eq hturn hanswer
  have h := builtFrom_ofLines turn.id hfirst hfull hextent
  rw [← hbare] at h
  exact ⟨h.run, h.kind, h.content, h.extent⟩

theorem namesOpenFence_of_mem {lines : List Text} {d : Diagnostic}
    (hd : d ∈ (Grammar.standard.read lines).diagnostics) : d.NamesOpenFence lines := by
  obtain ⟨turn, hturn, hdiagnostic⟩ := List.mem_filterMap.mp hd
  obtain ⟨_, _, ⟨first, hfirst, _⟩, hanswer⟩ := (reading_turns lines).mem hturn
  rw [Turn.diagnostic?_eq_some.mp hdiagnostic, answerAt] at hanswer
  cases hextent : extent? (lines.drop turn.position) with
  | some count => rw [hextent] at hanswer; cases hanswer
  | none =>
      rw [hextent] at hanswer
      cases hanswer
      exact namesOpenFence hfirst hextent

theorem read_blocks_increase (lines : List Text) :
    (Grammar.standard.read lines).blocks.Pairwise
      fun a b => ∀ m ∈ a.lines, ∀ n ∈ b.lines, m < n := by
  have hturns : ((Grammar.standard.turns lines).filterMap Turn.block?).Pairwise
      fun a b => ∀ m ∈ a.lines, ∀ n ∈ b.lines, m < n := by
    refine List.pairwise_filterMap.mpr ((turns_increase lines).imp ?_)
    intro s t hst a ha b hb
    rw [← Turn.lines_of_ok (Turn.block?_eq_some.mp ha),
      ← Turn.lines_of_ok (Turn.block?_eq_some.mp hb)]
    exact hst
  rw [← (read_spec lines).2] at hturns
  exact List.pairwise_map.mp hturns

theorem read_faults_increase (lines : List Text) :
    (Grammar.standard.read lines).diagnostics.Pairwise fun a b => a.line < b.line := by
  refine List.pairwise_filterMap.mpr ((turns_increase lines).imp ?_)
  intro s t hst a ha b hb
  rw [Turn.lines_of_error (Turn.diagnostic?_eq_some.mp ha),
    Turn.lines_of_error (Turn.diagnostic?_eq_some.mp hb)] at hst
  exact hst _ (List.mem_singleton_self _) _ (List.mem_singleton_self _)

/-- Of things whose lines increase no two share a line. -/
theorem eq_of_shared_line {α : Type} {linesOf : α → List Nat} {things : List α} {a b : α}
    {number : Nat}
    (h : things.Pairwise fun a b => ∀ m ∈ linesOf a, ∀ n ∈ linesOf b, m < n)
    (ha : a ∈ things) (hb : b ∈ things) (hmemA : number ∈ linesOf a)
    (hmemB : number ∈ linesOf b) : a = b := by
  by_contra hne
  have hdisjoint : things.Pairwise fun a b => ∀ m ∈ linesOf a, ∀ n ∈ linesOf b, m ≠ n :=
    h.imp fun h m hm n hn => Nat.ne_of_lt (h m hm n hn)
  have : Std.Symm fun a b : α => ∀ m ∈ linesOf a, ∀ n ∈ linesOf b, m ≠ n :=
    ⟨fun a b h m hm n hn => (h n hn m hm).symm⟩
  exact hdisjoint.forall ha hb hne number hmemA number hmemB rfl

/-- No diagnostic names a line of a block: the two come of different turns,
and two turns share no line, whichever of them comes first. -/
theorem read_apart {lines : List Text} {b : Block} {d : Diagnostic}
    (hb : b ∈ (Grammar.standard.read lines).blocks)
    (hd : d ∈ (Grammar.standard.read lines).diagnostics) : d.line ∉ b.lines := by
  intro hmem
  obtain ⟨s, hs, hsb⟩ := exists_turn_of_mem_blocks hb
  obtain ⟨t, ht, htd⟩ := List.mem_filterMap.mp hd
  rw [Turn.diagnostic?_eq_some] at htd
  have hs' : d.line ∈ s.lines := by rwa [Turn.lines_of_ok hsb]
  have ht' : d.line ∈ t.lines := by
    rw [Turn.lines_of_error htd]
    exact List.mem_singleton_self _
  rw [← eq_of_shared_line (turns_increase lines) hs ht hs' ht', hsb] at htd
  cases htd

/-- A line that is in no block and that no diagnostic names is blank. -/
theorem read_left_out {lines : List Text} {number : Nat} {line : Text}
    (hline : lineNumbered? lines number = some line)
    (hblocks : ∀ b ∈ (Grammar.standard.read lines).blocks, number ∉ b.lines)
    (hfaults : ∀ d ∈ (Grammar.standard.read lines).diagnostics, d.line ≠ number) :
    Text.allBlank line = true := by
  refine (reading_turns lines).left_out (Nat.pos_of_ne_zero ?_) hline ?_
  · rintro rfl
    cases hline
  · intro hmem
    obtain ⟨turn, hturn, hmem⟩ := List.mem_flatMap.mp hmem
    cases hanswer : turn.answer with
    | ok b =>
        rw [Turn.lines_of_ok hanswer] at hmem
        have hb : b ∈ (Grammar.standard.read lines).blocks.map Block.bare :=
          (read_spec lines).2 ▸
            List.mem_filterMap.mpr ⟨turn, hturn, Turn.block?_eq_some.mpr hanswer⟩
        obtain ⟨hung, hhung, rfl⟩ := List.mem_map.mp hb
        exact hblocks hung hhung hmem
    | error d =>
        rw [Turn.lines_of_error hanswer, List.mem_singleton] at hmem
        exact hfaults d
          (List.mem_filterMap.mpr ⟨turn, hturn, Turn.diagnostic?_eq_some.mpr hanswer⟩)
          hmem.symm

/-- Every line of a document is in one block, or named by one diagnostic, or
blank. The turns are the order in which blocks and diagnostics come. -/
theorem read_accountsFor (lines : List Text) :
    (Grammar.standard.read lines).AccountsFor lines ∧
      ((Grammar.standard.turns lines).flatMap Turn.lines).Pairwise (· < ·) ∧
      (Grammar.standard.read lines).blocks.map (·.lines) =
        ((Grammar.standard.turns lines).filterMap Turn.block?).map (·.lines) ∧
      (Grammar.standard.read lines).diagnostics =
        (Grammar.standard.turns lines).filterMap Turn.diagnostic? := by
  refine ⟨?_, (reading_turns lines).lines_increase.1, ?_, rfl⟩
  · exact {
      built := fun b hb => built_of_mem hb
      faults := fun d hd => namesOpenFence_of_mem hd
      blocks_increase := read_blocks_increase lines
      faults_increase := read_faults_increase lines
      apart := fun b hb d hd => read_apart hb hd
      left_out := fun number line hline hblocks hfaults =>
        Text.trim_eq_nil_iff.mpr (read_left_out hline hblocks hfaults) }
  · rw [← (read_spec lines).2, List.map_map]
    rfl

end RequestBook
