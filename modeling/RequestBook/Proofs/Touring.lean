import RequestBook.Outline.Dump
import RequestBook.Proofs.Digits
import RequestBook.Proofs.Reprinting
import RequestBook.Report

/-!
# The dump goes through a document once

The dump goes down from block to block by number, and nothing in an outline
says that this ends or that it meets each block. `Outline.Tours` is the way it
goes, without a bound, and the room that the dump is given is bookkeeping: a
child stands behind its parent in the document, so a block never has more than
the blocks behind it below it, and any room that covers them gives the same
lines (`exists_tour`).

What the dump prints is said of the tour. All of it rests on two facts about
links in a document. The way up from a block is one chain (`Over.unique`), and
numbers increase along it (`Over.id_lt`); so no block lies below two blocks
that have the same parent (`eq_of_ways`), and no block of the tour below one of
them has a sibling in the tour of the other (`eq_of_same_parent`). A title, a
word behind a fence and the first line of a text hold no line break, so each
block is one line of what is printed.
-/

namespace RequestBook

open Relation (ReflTransGen TransGen)

/-! ## Tours -/

namespace Outline

/-- The way of the dump through blocks of one depth and all below them: the
blocks it meets, with their depths. It is not taken for granted that the way
ends. -/
inductive Tours (outline : Outline) : (depth : Nat) → List Block → List (Nat × Block) → Prop
  | nil {depth : Nat} : Tours outline depth [] []
  | cons {depth : Nat} {b : Block} {rest : List Block} {below more : List (Nat × Block)}
      (down : Tours outline (depth + 1) (outline.children b) below)
      (on : Tours outline depth rest more) :
      Tours outline depth (b :: rest) ((depth, b) :: (below ++ more))

theorem Tours.unique {outline : Outline} {depth : Nat} {blocks : List Block}
    {tour tour' : List (Nat × Block)} (ht : outline.Tours depth blocks tour)
    (ht' : outline.Tours depth blocks tour') : tour = tour' := by
  induction ht generalizing tour' with
  | nil =>
      cases ht'
      rfl
  | cons down on ihDown ihOn =>
      cases ht' with
      | cons down' on' => rw [ihDown down', ihOn on']

/-- The line that the dump prints for a block at a depth. -/
def lineOf (entry : Nat × Block) : Text := entry.2.dumpLine entry.1

/-- There is room enough for a block if there is for the blocks behind it. -/
theorem exists_tour {outline : Outline} (h : Hung outline.blocks) (room : Nat) {depth : Nat}
    {blocks : List Block} (hroom : ∀ b ∈ blocks, ∃ i, outline.blocks[i]? = some b ∧
      outline.blocks.length ≤ room + i) :
    ∃ tour, outline.Tours depth blocks tour ∧
      blocks.flatMap (outline.dumpFrom room depth) = tour.map lineOf := by
  induction room generalizing depth blocks with
  | zero =>
      cases blocks with
      | nil => exact ⟨[], .nil, rfl⟩
      | cons b rest =>
          obtain ⟨i, hi, hlen⟩ := hroom b List.mem_cons_self
          have := (List.getElem?_eq_some_iff.mp hi).1
          omega
  | succ room ih =>
      induction blocks with
      | nil => exact ⟨[], .nil, rfl⟩
      | cons b rest ihRest =>
          obtain ⟨hb, hrest⟩ := List.forall_mem_cons.mp hroom
          obtain ⟨i, hi, hlen⟩ := hb
          have hchildren : ∀ c ∈ outline.children b, ∃ j, outline.blocks[j]? = some c ∧
              outline.blocks.length ≤ room + j := by
            intro c hc
            have hover : outline.Over b c := ⟨List.mem_of_getElem? hi, hc⟩
            obtain ⟨j, hj⟩ := List.mem_iff_getElem?.mp ((over_iff h).mp hover).2.1
            have hij := h.numbered.index_lt hi hj (hover.id_lt h)
            exact ⟨j, hj, by omega⟩
          obtain ⟨below, hbelow, hbelowLines⟩ : ∃ below,
              outline.Tours (depth + 1) (outline.children b) below ∧ _ := ih hchildren
          obtain ⟨more, hmore, hmoreLines⟩ := ihRest hrest
          refine ⟨_, .cons hbelow hmore, ?_⟩
          rw [List.flatMap_cons, dumpFrom, hbelowLines, hmoreLines, List.map_cons,
            List.map_append, List.cons_append]
          rfl

namespace Tours

variable {outline : Outline} {depth : Nat} {blocks : List Block} {tour : List (Nat × Block)}

/-- A tour meets the blocks that lie below those it begins with. -/
theorem mem_iff (ht : outline.Tours depth blocks tour) (h : Hung outline.blocks)
    (hblocks : ∀ b ∈ blocks, b ∈ outline.blocks) {n : Block} :
    n ∈ tour.map Prod.snd ↔ ∃ b ∈ blocks, ReflTransGen outline.Over b n := by
  induction ht with
  | nil => simp
  | @cons depth b rest below more down on ihDown ihOn =>
      obtain ⟨hb, hrest⟩ := List.forall_mem_cons.mp hblocks
      have hchildren : ∀ c ∈ outline.children b, c ∈ outline.blocks := fun c hc =>
        ((mem_outline_children_iff h hb).mp hc).1
      have hway : ReflTransGen outline.Over b n ↔
          n = b ∨ ∃ c ∈ outline.children b, ReflTransGen outline.Over c n := by
        rw [ReflTransGen.cases_head_iff, eq_comm]
        simp only [Over, hb, true_and]
      rw [List.map_cons, List.map_append, List.mem_cons, List.mem_append, ihDown hchildren,
        ihOn hrest, List.exists_mem_cons_iff, hway, or_assoc]

/-- Behind a block in a tour comes the tour of its children. -/
theorem inside (ht : outline.Tours depth blocks tour) {entry : Nat × Block} (hentry : entry ∈ tour) :
    ∃ before own after, tour = before ++ entry :: (own ++ after) ∧
      outline.Tours (entry.1 + 1) (outline.children entry.2) own := by
  induction ht with
  | nil => cases hentry
  | @cons depth b rest below more down on ihDown ihOn =>
      rw [List.mem_cons, List.mem_append] at hentry
      rcases hentry with rfl | hentry | hentry
      · exact ⟨[], below, more, rfl, down⟩
      · obtain ⟨before, own, after, rfl, hown⟩ := ihDown hentry
        exact ⟨(depth, b) :: before, own, after ++ more, by simp, hown⟩
      · obtain ⟨before, own, after, rfl, hown⟩ := ihOn hentry
        exact ⟨(depth, b) :: (below ++ before), own, after, by simp, hown⟩

/-- Siblings are met in the order of their numbers. -/
theorem siblings (ht : outline.Tours depth blocks tour) (h : Hung outline.blocks)
    {parent : Option Nat} (hblocks : ∀ b ∈ blocks, b ∈ outline.blocks ∧ b.parent = parent)
    (hincrease : blocks.Pairwise fun a b => a.id < b.id) :
    tour.Pairwise fun a b => a.2.parent = b.2.parent → a.2.id < b.2.id := by
  induction ht generalizing parent with
  | nil => exact .nil
  | @cons depth b rest below more down on ihDown ihOn =>
      obtain ⟨⟨hb, hparent⟩, hrest⟩ := List.forall_mem_cons.mp hblocks
      obtain ⟨hfirst, hincrease⟩ := List.pairwise_cons.mp hincrease
      have hchildren : ∀ c ∈ outline.children b, c ∈ outline.blocks ∧ c.parent = some b.id :=
        fun c hc => (mem_outline_children_iff h hb).mp hc
      have hchildrenIncrease : (outline.children b).Pairwise fun a c => a.id < c.id := by
        have hids := h.children_increase hb
        rw [← outline_children_ids h hb] at hids
        exact List.pairwise_map.mp hids
      have hbelow : ∀ x ∈ below, TransGen outline.Over b x.2 := by
        intro x hx
        obtain ⟨c, hc, hway⟩ := (down.mem_iff h fun c hc => (hchildren c hc).1).mp
          (List.mem_map_of_mem hx)
        exact .head' ⟨hb, hc⟩ hway
      have hmore : ∀ y ∈ more, ∃ r ∈ rest, ReflTransGen outline.Over r y.2 := fun y hy =>
        (on.mem_iff h fun r hr => (hrest r hr).1).mp (List.mem_map_of_mem hy)
      refine List.pairwise_cons.mpr ⟨fun y hy hsame => ?_, List.pairwise_append.mpr
        ⟨ihDown hchildren hchildrenIncrease, ihOn hrest hincrease, fun x hx y hy hsame => ?_⟩⟩
      · rcases List.mem_append.mp hy with hy | hy
        · obtain ⟨c, hover, hway⟩ := TransGen.head'_iff.mp (hbelow y hy)
          exact (hover.id_lt h).trans_le (id_le_of_way h hway)
        · obtain ⟨r, hr, hway⟩ := hmore y hy
          obtain ⟨hrBlock, hrParent⟩ := hrest r hr
          have heq := eq_of_way h hrBlock hway (hrParent.trans (hparent.symm.trans hsame))
          exact heq ▸ hfirst r hr
      · obtain ⟨r, hr, hway⟩ := hmore y hy
        obtain ⟨hrBlock, hrParent⟩ := hrest r hr
        have heq := eq_of_same_parent h hb hrBlock (hparent.trans hrParent.symm) (hbelow x hx) hway
          hsame
        have hlt := hfirst r hr
        rw [heq] at hlt
        exact absurd hlt (Nat.lt_irrefl _)

end Tours

/-! ## Ancestors -/

/-- The blocks above a block, each once. -/
def Ancestry (outline : Outline) (above : List Block) (b : Block) : Prop :=
  above.Nodup ∧ ∀ p, p ∈ above ↔ TransGen outline.Over p b

section Ancestors

variable {outline : Outline} (h : Hung outline.blocks)

include h

theorem ancestry_root {b : Block} (hb : b ∈ outline.roots) : outline.Ancestry [] b := by
  refine ⟨List.nodup_nil, fun p => iff_of_false List.not_mem_nil fun habove => ?_⟩
  obtain ⟨q, -, hover⟩ := TransGen.tail'_iff.mp habove
  have hparent := ((over_iff h).mp hover).2.2
  rw [(root_mem hb).2] at hparent
  cases hparent

theorem Ancestry.child {above : List Block} {b c : Block} (hover : outline.Over b c)
    (habove : outline.Ancestry above b) : outline.Ancestry (b :: above) c := by
  refine ⟨List.nodup_cons.mpr ⟨fun hself => ?_, habove.1⟩, fun p => ?_⟩
  · obtain ⟨q, hstep, hway⟩ := TransGen.head'_iff.mp ((habove.2 b).mp hself)
    have hlt := (hstep.id_lt h).trans_le (id_le_of_way h hway)
    exact absurd hlt (Nat.lt_irrefl _)
  · rw [List.mem_cons, habove.2 p]
    refine Iff.trans ?_ TransGen.tail'_iff.symm
    constructor
    · rintro (rfl | hp)
      · exact ⟨p, .refl, hover⟩
      · exact ⟨b, hp.to_reflTransGen, hover⟩
    · rintro ⟨q, hway, hover'⟩
      rw [hover'.unique h hover, Relation.reflTransGen_iff_eq_or_transGen] at hway
      exact hway.imp_left Eq.symm

/-- The depth at which a tour meets a block is the number of its ancestors. -/
theorem Tours.ancestry {depth : Nat} {blocks : List Block} {tour : List (Nat × Block)}
    (ht : outline.Tours depth blocks tour) {above : List Block} (hdepth : above.length = depth)
    (hblocks : ∀ b ∈ blocks, b ∈ outline.blocks ∧ outline.Ancestry above b) :
    ∀ entry ∈ tour, ∃ own, outline.Ancestry own entry.2 ∧ own.length = entry.1 := by
  induction ht generalizing above with
  | nil => exact fun _ hentry => nomatch hentry
  | @cons depth b rest below more down on ihDown ihOn =>
      obtain ⟨⟨hb, hown⟩, hrest⟩ := List.forall_mem_cons.mp hblocks
      intro entry hentry
      rw [List.mem_cons, List.mem_append] at hentry
      rcases hentry with rfl | hentry | hentry
      · exact ⟨above, hown, hdepth⟩
      · have hdepth : (b :: above).length = depth + 1 := by rw [List.length_cons, hdepth]
        refine ihDown hdepth (fun c hc => ⟨((mem_outline_children_iff h hb).mp hc).1, ?_⟩) entry hentry
        exact Ancestry.child h ⟨hb, hc⟩ hown
      · exact ihOn hdepth hrest entry hentry

end Ancestors

end Outline

/-! ## One line for each block -/

namespace Text

theorem oneLine_ofNat (n : Nat) : OneLine (ofNat n) :=
  ⟨fun hmem => absurd (isDigit_of_mem_ofNat hmem) (by decide),
    fun hmem => absurd (isDigit_of_mem_ofNat hmem) (by decide)⟩

/-- A line of a text is a piece between line feeds, or one without its last
character. -/
theorem exists_field_of_mem_lines {t line : Text} (h : line ∈ lines t) :
    ∃ piece ∈ fields '\n' t, line ⊆ piece := by
  have hended : ∀ l ∈ (fields '\n' t).dropLast.map fun l =>
      if l.getLast? = some '\r' then l.dropLast else l, ∃ piece ∈ fields '\n' t, l ⊆ piece := by
    intro l hl
    obtain ⟨piece, hpiece, rfl⟩ := List.mem_map.mp hl
    refine ⟨piece, List.dropLast_subset _ hpiece, ?_⟩
    split
    · exact List.dropLast_subset piece
    · exact List.Subset.refl piece
  rw [lines] at h
  split at h
  · next c rest hlast =>
      rcases List.mem_append.mp h with h | h
      · exact hended line h
      · rw [List.mem_singleton.mp h]
        exact ⟨_, List.mem_of_getLast? hlast, List.Subset.refl _⟩
  · exact hended line h

/-- Lines end at line feeds only, so the text must have no returns. -/
theorem oneLine_of_mem_lines {t line : Text} (hreturn : '\r' ∉ t) (h : line ∈ lines t) :
    OneLine line := by
  obtain ⟨piece, hpiece, hsub⟩ := exists_field_of_mem_lines h
  obtain ⟨hfeed, hall⟩ := mem_fields hpiece
  exact ⟨fun hmem => hreturn (hall (hsub hmem)), fun hmem => hfeed (hsub hmem)⟩

end Text

theorem Block.Kind.Fits.oneLine_label {kind : Block.Kind} {content : Text}
    (h : kind.Fits content) : Text.OneLine kind.label := by
  have hclose : Text.OneLine [')'] := by decide
  cases h with
  | @heading level =>
      have hopen : Text.OneLine "heading(h".toList := by decide
      exact Text.oneLine_append.mpr
        ⟨Text.oneLine_append.mpr ⟨hopen, Text.oneLine_ofNat level⟩, hclose⟩
  | quote =>
      show Text.OneLine "blockquote".toList
      decide
  | @fence lang _ hline =>
      cases lang with
      | nil =>
          show Text.OneLine "code".toList
          decide
      | cons c lang =>
          have hopen : Text.OneLine "code(".toList := by decide
          exact Text.oneLine_append.mpr ⟨Text.oneLine_append.mpr ⟨hopen, hline⟩, hclose⟩
  | paragraph =>
      show Text.OneLine "paragraph".toList
      decide

theorem Block.Kind.Fits.return_not_mem {kind : Block.Kind} {content : Text}
    (h : kind.Fits content) : '\r' ∉ content := by
  cases h with
  | heading _ hline | quote hline | paragraph hline => exact hline.1
  | fence _ _ hbody => exact hbody.no_return

theorem oneLine_dumpLine {b : Block} (h : b.kind.Fits b.content) (depth : Nat) :
    Text.OneLine (b.dumpLine depth) := by
  have hindent : Text.OneLine (List.replicate (2 * depth) ' ') := by
    rw [Text.oneLine_iff]
    intro c hc
    rw [List.eq_of_mem_replicate hc]
    rfl
  have hopen : Text.OneLine ['['] := by decide
  have hbracket : Text.OneLine "] ".toList := by decide
  have hsecond : Text.OneLine " [".toList := by decide
  have hcomma : Text.OneLine ", ".toList := by decide
  have hnumbers : Text.OneLine (Text.join ", ".toList (b.lines.map Text.ofNat)) := by
    refine Text.oneLine_join hcomma fun piece hpiece => ?_
    obtain ⟨n, -, rfl⟩ := List.mem_map.mp hpiece
    exact Text.oneLine_ofNat n
  have hfirst : Text.OneLine (((Text.lines b.content).headD []).take dumpWidth) := by
    refine Text.OneLine.of_subset ?_ (List.take_subset _ _)
    have hall : ∀ line ∈ Text.lines b.content, Text.OneLine line := fun line hline =>
      Text.oneLine_of_mem_lines h.return_not_mem hline
    cases hlines : Text.lines b.content with
    | nil => exact ⟨List.not_mem_nil, List.not_mem_nil⟩
    | cons line rest => exact hall line (hlines ▸ List.mem_cons_self)
  simp only [Block.dumpLine, Text.oneLine_append]
  exact ⟨⟨⟨⟨⟨⟨⟨⟨hindent, hopen⟩, Text.oneLine_ofNat b.id⟩, hbracket⟩, h.oneLine_label⟩, hsecond⟩,
    hnumbers⟩, hbracket⟩, hfirst⟩

theorem dumpLine_indented (b : Block) (depth : Nat) :
    b.dumpLine depth = List.replicate (2 * depth) ' ' ++ b.dumpLine 0 := by
  simp only [Block.dumpLine, List.append_assoc, Nat.mul_zero, List.replicate_zero, List.nil_append]

/-! ## The tour of a document -/

/-- A tour from the roots to its end, and the lines of the dump are its
blocks, whatever room the dump is given from the number of blocks on. -/
structure Outline.Toured (outline : Outline) (tour : List (Nat × Block)) : Prop where
  ends : outline.Tours 0 outline.roots tour
  settled : ∀ room, outline.blocks.length ≤ room →
    outline.roots.flatMap (outline.dumpFrom room 0) = outline.dump
  lines : outline.dump =
    tour.map fun entry => List.replicate (2 * entry.1) ' ' ++ entry.2.dumpLine 0
  printed : Text.splitLines [] (Report.linesText outline.dump) = outline.dump
  all : (tour.map Prod.snd).Perm outline.blocks
  indented : ∀ entry ∈ tour, ∃ above, outline.Ancestry above entry.2 ∧ above.length = entry.1
  inside : ∀ entry ∈ tour, ∃ before own after, tour = before ++ entry :: (own ++ after) ∧
    ∀ n, n ∈ own.map Prod.snd ↔ TransGen outline.Over entry.2 n
  siblings : tour.Pairwise fun a b => a.2.parent = b.2.parent → a.2.id < b.2.id

section Roots

variable {outline : Outline} (h : Hung outline.blocks) {tour : List (Nat × Block)}

theorem exists_index_of_mem_roots {room : Nat} (hroom : outline.blocks.length ≤ room) :
    ∀ b ∈ outline.roots, ∃ i, outline.blocks[i]? = some b ∧ outline.blocks.length ≤ room + i := by
  intro b hb
  obtain ⟨i, hi⟩ := List.mem_iff_getElem?.mp (root_mem hb).1
  exact ⟨i, hi, by omega⟩

include h

/-- From the roots a tour meets every block, and none twice. -/
theorem tour_perm (htour : outline.Tours 0 outline.roots tour)
    (hsiblings : tour.Pairwise fun a b => a.2.parent = b.2.parent → a.2.id < b.2.id) :
    (tour.map Prod.snd).Perm outline.blocks := by
  have hblocks : outline.blocks.Nodup :=
    h.numbered.imp fun hlt => ne_of_apply_ne Block.id hlt.ne
  have htourNodup : (tour.map Prod.snd).Nodup := by
    rw [List.Nodup, List.pairwise_map]
    refine hsiblings.imp fun {a b} hlt heq => ?_
    have hself := hlt (congrArg Block.parent heq)
    rw [heq] at hself
    exact Nat.lt_irrefl _ hself
  refine (List.perm_ext_iff_of_nodup htourNodup hblocks).mpr fun n => ?_
  rw [htour.mem_iff h fun b hb => (root_mem hb).1]
  constructor
  · rintro ⟨root, hroot, hway⟩
    exact Outline.mem_blocks_of_way h (root_mem hroot).1 hway
  · intro hn
    obtain ⟨root, hroot, hway⟩ := exists_root h hn
    exact ⟨root, hroot, over_of_way h (root_mem hroot).1 hway⟩

end Roots

/-- The dump of every document ends, and its lines are one for each block: the
blocks below a block behind it and together, siblings in the order of their
numbers, and two blanks for each block above. -/
theorem dump_toured (text : Text) : ∃ tour, (Grammar.standard.readText text).Toured tour := by
  set outline := Grammar.standard.readText text
  have h : Hung outline.blocks := read_hung _
  have hrun : ∀ room, outline.blocks.length ≤ room → ∃ tour, outline.Tours 0 outline.roots tour ∧
      outline.roots.flatMap (outline.dumpFrom room 0) = tour.map Outline.lineOf := fun room hroom =>
    Outline.exists_tour h room (exists_index_of_mem_roots hroom)
  obtain ⟨tour, htour, hdump⟩ := hrun _ (Nat.le_refl _)
  have hlines : outline.dump = tour.map Outline.lineOf := hdump
  have hrootsIncrease : outline.roots.Pairwise fun a b => a.id < b.id :=
    h.numbered.sublist List.filter_sublist
  have hsiblings := htour.siblings h (fun _ hb => root_mem hb) hrootsIncrease
  have hperm := tour_perm h htour hsiblings
  have hone : ∀ line ∈ outline.dump, Text.OneLine line := by
    intro line hline
    rw [hlines] at hline
    obtain ⟨entry, hentry, rfl⟩ := List.mem_map.mp hline
    exact oneLine_dumpLine (fits_of_mem (hperm.subset (List.mem_map_of_mem hentry))) entry.1
  exact ⟨tour, {
    ends := htour
    settled := fun room hroom => by
      obtain ⟨tour', htour', hdump'⟩ := hrun room hroom
      rw [hdump', htour'.unique htour, hlines]
    lines := by
      rw [hlines]
      exact List.map_congr_left fun entry _ => dumpLine_indented entry.2 entry.1
    printed := Text.splitLines_ofLines hone
    all := hperm
    indented := htour.ancestry h rfl fun b hb => ⟨(root_mem hb).1, Outline.ancestry_root h hb⟩
    inside := fun entry hentry => by
      have hb : entry.2 ∈ outline.blocks := hperm.subset (List.mem_map_of_mem hentry)
      obtain ⟨before, own, after, heq, hown⟩ := htour.inside hentry
      refine ⟨before, own, after, heq, fun n => ?_⟩
      rw [hown.mem_iff h fun c hc => ((mem_outline_children_iff h hb).mp hc).1,
        TransGen.head'_iff]
      simp only [Outline.Over, hb, true_and]
    siblings := hsiblings }⟩

/-- A field before the section that it does not belong to, and a fence that is
never closed between a section and its field. -/
example : (Grammar.standard.readText
      "# A\n### u\n## B\n\x60\x60\x60json\n### url\n> GET\n> x\n".toList).dump =
    ["[1] heading(h1) [1] A", "  [3] heading(h2) [3] B", "    [5] heading(h3) [5] url",
      "      [6] blockquote [6, 7] GET x", "[2] heading(h3) [2] u"].map String.toList := by
  decide +kernel

end RequestBook
