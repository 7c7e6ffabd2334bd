import Mathlib.Data.List.Nodup
import Mathlib.Logic.Relation
import RequestBook.Proofs.Accounting

/-!
# A document is a forest

A block names its parent and a parent names its children, and the two were
written down at different times, the second through a search that could miss.
That they agree is what `Hung` is good for: the children of a block are the
numbers of those that name it, so whatever is said of children is said of
parents, and a parent is the answer of a search backwards. Numbers increase
along the document, gaps left by fences that were never closed included, so
the way up from a block ends at a root.
-/

namespace RequestBook

open Relation (ReflTransGen TransGen)

/-! ## Parents and children -/

namespace Hung

variable {blocks : List Block} {p n : Block}

theorem mem_children_iff (h : Hung blocks) (hp : p ∈ blocks) (hn : n ∈ blocks) :
    n.id ∈ p.children ↔ n.parent = some p.id := by
  rw [h.children p hp, mem_below]
  constructor
  · rintro ⟨x, hx, hid, hparent⟩
    rw [← h.numbered.eq_of_id hx hn hid]
    exact hparent
  · exact fun hparent => ⟨n, hn, rfl, hparent⟩

theorem exists_of_mem_children (h : Hung blocks) (hp : p ∈ blocks) {id : Nat}
    (hid : id ∈ p.children) : ∃ n ∈ blocks, n.id = id ∧ n.parent = some p.id := by
  rw [h.children p hp] at hid
  exact mem_below.mp hid

theorem children_increase (h : Hung blocks) (hp : p ∈ blocks) :
    p.children.Pairwise (· < ·) := by
  rw [h.children p hp, below]
  exact List.pairwise_map.mpr (h.numbered.sublist List.filter_sublist)

/-- A block is named by one parent at most. -/
theorem parent_unique (h : Hung blocks) (hp : p ∈ blocks) {q : Block} (hq : q ∈ blocks)
    {id : Nat} (hidp : id ∈ p.children) (hidq : id ∈ q.children) : q = p := by
  obtain ⟨n, hn, rfl, hparent⟩ := h.exists_of_mem_children hp hidp
  have hq' := (h.mem_children_iff hq hn).mp hidq
  rw [hparent, Option.some.injEq] at hq'
  exact h.numbered.eq_of_id hq hp hq'.symm

end Hung

/-! ## A search backwards -/

/-- In a document every parent is the one that a search backwards through the
blocks before finds, and a heading takes its order from the nearest heading
of its level, or is the first. -/
theorem read_parent_eq_scanned (lines : List Text) {before after : List Block} {block : Block}
    (h : (Grammar.standard.read lines).blocks = before ++ block :: after) :
    block.parent = scannedParent before block ∧
      ∀ level order, block.kind = .heading level order →
        match nearest? before (·.isHeadingAt level) with
        | some earlier => earlier.kind = .heading level order
        | none => order = 1 := by
  have hung := read_hung lines
  rw [h] at hung
  have hblock : block ∈ before ++ block :: after :=
    List.mem_append_right _ List.mem_cons_self
  refine ⟨?_, fun level order hkind => ?_⟩
  · have hat : (before ++ block :: after)[before.length]? = some block := by simp
    rw [hung.parents _ _ hat, List.take_left]
  · have hone := hung.orders block hblock level order hkind
    cases hfound : nearest? before (·.isHeadingAt level) with
    | none => exact hone
    | some earlier =>
        obtain ⟨hmem, hlevel⟩ := nearest?_some hfound
        cases hk : earlier.kind with
        | heading l o =>
            have ho := hung.orders earlier (List.mem_append_left _ hmem) l o hk
            rw [Block.isHeadingAt, hk] at hlevel
            have hl : l = level := by simpa [Block.Kind.level?] using hlevel
            simp only []
            rw [hk, hl, ho, hone]
        | quote | fence | paragraph =>
            rw [Block.isHeadingAt, hk] at hlevel
            cases hlevel

/-- A fence that is never closed takes the number four with it, and a heading
of the first level lies between a field and its section. -/
theorem parent_past_gap_and_title :
    let before : List Block :=
      [⟨1, .heading 1 1, "A".toList, [1], none, [3]⟩,
        ⟨2, .heading 3 1, "u".toList, [2], none, []⟩,
        ⟨3, .heading 2 1, "B".toList, [3], some 1, [6]⟩,
        ⟨5, .heading 1 1, "C".toList, [5], none, []⟩]
    let field : Block := ⟨6, .heading 3 1, "url".toList, [6], some 3, []⟩
    (Grammar.standard.read (["# A", "### u", "## B", "\x60\x60\x60json", "# C",
        "### url"].map String.toList)).blocks = before ++ field :: [] ∧
      some 3 = scannedParent before field ∧
      match nearest? before (·.isHeadingAt 3) with
      | some earlier => earlier.kind = .heading 3 1
      | none => 1 = 1 := by
  intro before field
  have h : (Grammar.standard.read (["# A", "### u", "## B", "\x60\x60\x60json", "# C",
      "### url"].map String.toList)).blocks = before ++ field :: [] := by decide +kernel
  have hscan := read_parent_eq_scanned _ h
  exact ⟨h, hscan.1, hscan.2 3 1 rfl⟩

/-! ## Forests -/

/-- The blocks of a document form an ordered forest. -/
structure Outline.Forest (outline : Outline) : Prop where
  positive : ∀ b ∈ outline.blocks, 1 ≤ b.id
  increase : outline.blocks.Pairwise fun a b => a.id < b.id
  parent_iff : ∀ p ∈ outline.blocks, ∀ n ∈ outline.blocks,
    n.parent = some p.id ↔ n.id ∈ p.children
  once : ∀ p ∈ outline.blocks, ∀ id ∈ p.children,
    p.children.count id = 1 ∧ ∀ q ∈ outline.blocks, id ∈ q.children → q = p
  parent_found : ∀ n ∈ outline.blocks, ∀ id, n.parent = some id →
    ∃ p ∈ outline.blocks, p.id = id ∧ p.id < n.id ∧ p.isHeading = true
  children_increase : ∀ p ∈ outline.blocks, p.children.Pairwise (· < ·)
  found : ∀ id b, outline.get? id = some b ↔ b ∈ outline.blocks ∧ b.id = id
  children_found : ∀ p ∈ outline.blocks, (outline.children p).map (·.id) = p.children
  root : ∀ n ∈ outline.blocks, ∃! root, root ∈ outline.roots ∧
    Relation.ReflTransGen (fun above b => b ∈ outline.children above) root n

section Ways

variable {outline : Outline} (h : Hung outline.blocks) {p n : Block}

include h

theorem mem_outline_children_iff (hp : p ∈ outline.blocks) :
    n ∈ outline.children p ↔ n ∈ outline.blocks ∧ n.parent = some p.id := by
  rw [Outline.children, List.mem_filterMap]
  constructor
  · rintro ⟨id, hid, hget⟩
    obtain ⟨hn, rfl⟩ := (Outline.get?_eq_some_iff h.numbered).mp hget
    exact ⟨hn, (h.mem_children_iff hp hn).mp hid⟩
  · rintro ⟨hn, hparent⟩
    exact ⟨n.id, (h.mem_children_iff hp hn).mpr hparent,
      (Outline.get?_eq_some_iff h.numbered).mpr ⟨hn, rfl⟩⟩

theorem outline_children_ids (hp : p ∈ outline.blocks) :
    (outline.children p).map (·.id) = p.children := by
  rw [Outline.children, List.map_filterMap]
  have hall : ∀ id ∈ p.children, (outline.get? id).map (·.id) = some id := fun id hid => by
    obtain ⟨n, hn, rfl, _⟩ := h.exists_of_mem_children hp hid
    rw [(Outline.get?_eq_some_iff h.numbered).mpr ⟨hn, rfl⟩]
    rfl
  rw [List.filterMap_congr hall, List.filterMap_some]

/-- The way up from a block ends, because numbers get smaller on it. -/
theorem exists_root (hn : n ∈ outline.blocks) :
    ∃ root, root ∈ outline.roots ∧
      Relation.ReflTransGen (fun above b => b ∈ outline.children above) root n := by
  induction hid : n.id using Nat.strongRecOn generalizing n with
  | ind id ih =>
    cases hparent : n.parent with
    | none =>
        exact ⟨n, List.mem_filter.mpr ⟨hn, by rw [hparent]; rfl⟩, .refl⟩
    | some pid =>
        obtain ⟨p, hp, rfl, hlt, _⟩ := h.parent_lt hn hparent
        obtain ⟨root, hroot, hway⟩ := ih p.id (by omega) hp rfl
        exact ⟨root, hroot, hway.tail ((mem_outline_children_iff h hp).mpr ⟨hn, hparent⟩)⟩

omit h in
theorem root_mem {root : Block} (hroot : root ∈ outline.roots) :
    root ∈ outline.blocks ∧ root.parent = none := by
  obtain ⟨hmem, hnone⟩ := List.mem_filter.mp hroot
  exact ⟨hmem, by simpa using hnone⟩

theorem mem_of_way {root : Block} (hroot : root ∈ outline.blocks)
    (hway : Relation.ReflTransGen (fun above b => b ∈ outline.children above) root n) :
    n ∈ outline.blocks := by
  induction hway with
  | refl => exact hroot
  | tail _ hstep ih => exact ((mem_outline_children_iff h ih).mp hstep).1

end Ways

/-! ## Links -/

namespace Outline

/-- A block of the document has another for a child. -/
def Over (outline : Outline) (p n : Block) : Prop :=
  p ∈ outline.blocks ∧ n ∈ outline.children p

section Links

variable {outline : Outline} (h : Hung outline.blocks) {p q n : Block}

include h

theorem over_iff :
    outline.Over p n ↔ p ∈ outline.blocks ∧ n ∈ outline.blocks ∧ n.parent = some p.id := by
  rw [Over]
  exact and_congr_right fun hp => mem_outline_children_iff h hp

theorem Over.id_lt (hover : outline.Over p n) : p.id < n.id := by
  obtain ⟨-, hn, hparent⟩ := (over_iff h).mp hover
  obtain ⟨above, -, hid, hlt, -⟩ := h.parent_lt hn hparent
  omega

theorem Over.unique (hover : outline.Over p n) (hover' : outline.Over q n) : p = q := by
  obtain ⟨hp, -, hparent⟩ := (over_iff h).mp hover
  obtain ⟨hq, -, hparent'⟩ := (over_iff h).mp hover'
  rw [hparent, Option.some.injEq] at hparent'
  exact h.numbered.eq_of_id hp hq hparent'

theorem id_le_of_way (hway : ReflTransGen outline.Over p n) : p.id ≤ n.id := by
  induction hway with
  | refl => exact Nat.le_refl _
  | tail _ hover ih => exact ih.trans (hover.id_lt h).le

theorem mem_blocks_of_way (hp : p ∈ outline.blocks) (hway : ReflTransGen outline.Over p n) :
    n ∈ outline.blocks := by
  cases hway with
  | refl => exact hp
  | tail _ hover => exact ((over_iff h).mp hover).2.1

/-- A block does not lead to one that has the same parent, itself apart. -/
theorem eq_of_way (hp : p ∈ outline.blocks) (hway : ReflTransGen outline.Over p n)
    (hsame : p.parent = n.parent) : p = n := by
  cases hway with
  | refl => rfl
  | @tail q _ hway hover =>
      rw [((over_iff h).mp hover).2.2] at hsame
      obtain ⟨above, -, hid, hlt, -⟩ := h.parent_lt hp hsame
      have hle := id_le_of_way h hway
      omega

/-- Ways from two siblings to one block have the same last step, and so on
back to the siblings. -/
theorem eq_of_ways (hp : p ∈ outline.blocks) (hq : q ∈ outline.blocks)
    (hsame : p.parent = q.parent) (hway : ReflTransGen outline.Over p n)
    (hway' : ReflTransGen outline.Over q n) : p = q := by
  induction hway with
  | refl => exact (eq_of_way h hq hway' hsame.symm).symm
  | tail hway hover ih =>
      cases hway' with
      | refl => exact eq_of_way h hp (hway.tail hover) hsame
      | tail hway' hover' => exact ih (hover.unique h hover' ▸ hway')

/-- A block below one of two siblings has no sibling at the other or below it. -/
theorem eq_of_same_parent {m : Block} (hp : p ∈ outline.blocks) (hq : q ∈ outline.blocks)
    (hsame : p.parent = q.parent) (hbelow : TransGen outline.Over p n)
    (hway : ReflTransGen outline.Over q m) (hparent : n.parent = m.parent) : p = q := by
  obtain ⟨above, haboveWay, hover⟩ := TransGen.tail'_iff.mp hbelow
  obtain ⟨habove, -, hnParent⟩ := (over_iff h).mp hover
  have hoverM : outline.Over above m := (over_iff h).mpr
    ⟨habove, mem_blocks_of_way h hq hway, hparent ▸ hnParent⟩
  exact eq_of_ways h hp hq hsame (haboveWay.tail hoverM) hway

end Links

end Outline

/-! ## Roots -/

section Roots

variable {outline : Outline} (h : Hung outline.blocks) {n : Block}

include h

theorem over_of_way {root : Block} (hroot : root ∈ outline.blocks)
    (hway : ReflTransGen (fun above b => b ∈ outline.children above) root n) :
    ReflTransGen outline.Over root n := by
  induction hway with
  | refl => exact .refl
  | tail hway hstep ih => exact ih.tail ⟨mem_of_way h hroot hway, hstep⟩

/-- Two ways down from roots to one block begin at one root. -/
theorem root_unique {root root' : Block} (hroot : root ∈ outline.roots)
    (hroot' : root' ∈ outline.roots)
    (hway : Relation.ReflTransGen (fun above b => b ∈ outline.children above) root n)
    (hway' : Relation.ReflTransGen (fun above b => b ∈ outline.children above) root' n) :
    root' = root := by
  obtain ⟨hmem, hnone⟩ := root_mem hroot
  obtain ⟨hmem', hnone'⟩ := root_mem hroot'
  exact Outline.eq_of_ways h hmem' hmem (hnone'.trans hnone.symm) (over_of_way h hmem' hway')
    (over_of_way h hmem hway)

end Roots

theorem read_id_pos {lines : List Text} {b : Block}
    (hb : b ∈ (Grammar.standard.read lines).blocks) : 1 ≤ b.id := by
  have hmem : b.bare ∈ (Grammar.standard.turns lines).filterMap Turn.block? :=
    (read_spec lines).2 ▸ List.mem_map_of_mem hb
  exact (reading_turns lines).numbered.2 b.bare hmem

/-- Every document is an ordered forest. -/
theorem read_forest (lines : List Text) : (Grammar.standard.read lines).Forest := by
  have h := read_hung lines
  exact {
    positive := fun b hb => read_id_pos hb
    increase := h.numbered
    parent_iff := fun p hp n hn => (h.mem_children_iff hp hn).symm
    once := fun p hp id hid =>
      ⟨List.count_eq_one_of_mem ((h.children_increase hp).imp Nat.ne_of_lt) hid,
        fun q hq hidq => h.parent_unique hp hq hid hidq⟩
    parent_found := fun n hn id hparent => by
      obtain ⟨p, hp, hid, hlt, hheading, _⟩ := h.parent_lt hn hparent
      exact ⟨p, hp, hid, hlt, hheading⟩
    children_increase := fun p hp => h.children_increase hp
    found := fun id b => Outline.get?_eq_some_iff h.numbered
    children_found := fun p hp => outline_children_ids h hp
    root := fun n hn => by
      obtain ⟨root, hroot, hway⟩ := exists_root h hn
      exact ⟨root, ⟨hroot, hway⟩,
        fun other ⟨hother, hway'⟩ => root_unique h hroot hother hway hway'⟩ }

end RequestBook
