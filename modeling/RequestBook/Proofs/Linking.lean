import RequestBook.Proofs.Numbering

/-!
# The table of headings is a scan backwards

A document is linked with a table that keeps the latest heading of each level
and is never cleared. The table forgets nothing that a search through the
blocks before could find: `Remembers` says that it holds, for each level, what
the search would answer, and one more block keeps that true. So the parent
that the table names is `scannedParent`, the answer of the search.

A block that has been hung is changed once more only when another is hung
below it, and then only in its children. `Hung` collects what holds of the
blocks between two of these changes. It is proved of one step in `Hung.add`
and of a whole document in `linked_hung`; whoever asks about parents or
children afterwards asks `Hung` and does not see the table.
-/

namespace RequestBook

/-! ## Levels -/

theorem level_eq {b : Block} {l l' : Nat} (h : b.isHeadingAt l = true)
    (h' : b.isHeadingAt l' = true) : l = l' := by
  rw [Block.isHeadingAt, beq_iff_eq] at h h'
  rw [h, Option.some.injEq] at h'
  exact h'

theorem isHeading_of_isHeadingAt {b : Block} {l : Nat} (h : b.isHeadingAt l = true) :
    b.isHeading = true := by
  rw [Block.isHeadingAt, beq_iff_eq] at h
  rw [Block.isHeading, h, Option.isSome_some]

theorem exists_isHeadingAt {b : Block} (h : b.isHeading = true) :
    ∃ l, b.isHeadingAt l = true := by
  obtain ⟨l, hl⟩ := Option.isSome_iff_exists.mp h
  exact ⟨l, by rw [Block.isHeadingAt, hl, beq_self_eq_true]⟩

/-! ## Searching backwards -/

/-- The nearest of the blocks before that has a property. -/
def nearest? (before : List Block) (p : Block → Bool) : Option Block :=
  before.reverse.find? p

/-- The parent of a block, found by looking back: for a heading the nearest
heading exactly one level up, which for the first level does not exist, and
for any other block the nearest heading. -/
def scannedParent (before : List Block) (block : Block) : Option Nat :=
  match block.kind with
  | .heading level _ =>
    if level > 1 then (nearest? before (·.isHeadingAt (level - 1))).map (·.id) else none
  | _ => (nearest? before (·.isHeading)).map (·.id)

/-- What a search backwards sees of a block. -/
def Block.sign (b : Block) : Nat × Block.Kind := (b.id, b.kind)

theorem nearest?_concat (before : List Block) (b : Block) (p : Block → Bool) :
    nearest? (before ++ [b]) p = if p b then some b else nearest? before p := by
  rw [nearest?, List.reverse_append, List.reverse_singleton, List.singleton_append,
    List.find?_cons]
  cases p b <;> rfl

theorem nearest?_append (before more : List Block) (p : Block → Bool) :
    nearest? (before ++ more) p = (nearest? more p).or (nearest? before p) := by
  rw [nearest?, List.reverse_append, List.find?_append]
  rfl

theorem nearest?_map (blocks : List Block) (g : Block → Block) (p : Block → Bool) :
    nearest? (blocks.map g) p = (nearest? blocks (p ∘ g)).map g := by
  rw [nearest?, nearest?, ← List.map_reverse, List.find?_map]

theorem nearest?_some {before : List Block} {p : Block → Bool} {b : Block}
    (h : nearest? before p = some b) : b ∈ before ∧ p b = true :=
  ⟨List.mem_reverse.mp (List.mem_of_find?_eq_some h), List.find?_some h⟩

theorem nearest?_none {before : List Block} {p : Block → Bool} {b : Block}
    (h : nearest? before p = none) (hb : b ∈ before) : p b = false :=
  Bool.eq_false_iff.mpr (List.find?_eq_none.mp h b (List.mem_reverse.mpr hb))

/-- The number that a search finds depends on numbers and kinds alone. -/
theorem nearest?_map_id_congr {before before' : List Block}
    (h : before.map Block.sign = before'.map Block.sign) (q : Block.Kind → Bool) :
    (nearest? before fun b => q b.kind).map (·.id) =
      (nearest? before' fun b => q b.kind).map (·.id) := by
  have hsign : ∀ l : List Block, (nearest? l fun b => q b.kind).map (·.id) =
      ((l.map Block.sign).reverse.find? fun s => q s.2).map Prod.fst := by
    intro l
    rw [← List.map_reverse, List.find?_map, Option.map_map]
    rfl
  rw [hsign, hsign, h]

theorem scannedParent_congr {before before' : List Block} {b b' : Block}
    (h : before.map Block.sign = before'.map Block.sign) (hkind : b.kind = b'.kind) :
    scannedParent before b = scannedParent before' b' := by
  rw [scannedParent, scannedParent, ← hkind]
  cases b.kind with
  | heading level order =>
      simp only []
      split
      · exact nearest?_map_id_congr h fun k => k.level? == some (level - 1)
      · rfl
  | quote | fence | paragraph => exact nearest?_map_id_congr h fun k => k.level?.isSome

theorem scannedParent_of_level {b : Block} {level : Nat} (before : List Block)
    (h : b.isHeadingAt (level + 1) = true) (hlevel : 0 < level) :
    scannedParent before b = (nearest? before (·.isHeadingAt level)).map (·.id) := by
  rw [Block.isHeadingAt, beq_iff_eq] at h
  rw [scannedParent]
  cases hkind : b.kind with
  | heading l order =>
      rw [hkind, Block.Kind.level?, Option.some.injEq] at h
      subst h
      simp only []
      rw [if_pos (Nat.succ_lt_succ hlevel), Nat.add_sub_cancel]
  | quote | fence | paragraph =>
      rw [hkind] at h
      cases h

theorem scannedParent_of_plain {b : Block} (before : List Block) (h : b.isHeading = false) :
    scannedParent before b = (nearest? before (·.isHeading)).map (·.id) := by
  rw [scannedParent]
  cases hkind : b.kind with
  | heading l order =>
      rw [Block.isHeading, hkind] at h
      cases h
  | quote | fence | paragraph => rfl

theorem scannedParent_nil (b : Block) : scannedParent [] b = none := by
  rw [scannedParent]
  cases b.kind with
  | heading level order =>
      simp only []
      split <;> rfl
  | quote | fence | paragraph => rfl

/-- A parent is a heading before, and for a heading one of the level above. -/
theorem scannedParent_some {before : List Block} {b : Block} {id : Nat}
    (h : scannedParent before b = some id) :
    ∃ above ∈ before, above.id = id ∧ above.isHeading = true ∧
      ∀ level, b.kind.level? = some level →
        1 < level ∧ above.isHeadingAt (level - 1) = true := by
  rw [scannedParent] at h
  split at h
  · next level order hkind =>
      split at h
      · next hlevel =>
          obtain ⟨above, habove, rfl⟩ := Option.map_eq_some_iff.mp h
          obtain ⟨hmem, hat⟩ := nearest?_some habove
          refine ⟨above, hmem, rfl, isHeading_of_isHeadingAt hat, ?_⟩
          intro l hl
          rw [hkind, Block.Kind.level?, Option.some.injEq] at hl
          subst hl
          exact ⟨hlevel, hat⟩
      · cases h
  · next hno =>
      obtain ⟨above, habove, rfl⟩ := Option.map_eq_some_iff.mp h
      obtain ⟨hmem, hheading⟩ := nearest?_some habove
      refine ⟨above, hmem, rfl, hheading, fun level hl => ?_⟩
      cases hkind : b.kind with
      | heading level' order => exact absurd hkind (hno level' order)
      | quote | fence | paragraph => rw [hkind] at hl; cases hl

theorem exists_of_scannedParent {before : List Block} {b : Block} {id : Nat}
    (h : scannedParent before b = some id) : ∃ above ∈ before, above.id = id := by
  obtain ⟨above, hmem, hid, _⟩ := scannedParent_some h
  exact ⟨above, hmem, hid⟩

theorem scannedParent_append (before more : List Block) (b : Block) :
    scannedParent (before ++ more) b = (scannedParent more b).or (scannedParent before b) := by
  rw [scannedParent, scannedParent, scannedParent]
  cases b.kind with
  | heading level order =>
      simp only []
      split
      · rw [nearest?_append, Option.map_or]
      · rfl
  | quote | fence | paragraph => simp only [nearest?_append, Option.map_or]

/-! ## The table -/

namespace Headings

theorem at?_record (table : Headings) (level l : Nat) (mark : HeadingMark) :
    (table.record level mark).at? l = if l = level then some mark else table.at? l := by
  have hlen : level < (table.byLevel ++
      List.replicate (level + 1 - table.byLevel.length) none).length := by
    rw [List.length_append, List.length_replicate]
    omega
  rw [at?, record]
  simp only []
  by_cases hl : l = level
  · subst hl
    rw [List.getElem?_set_self hlen, if_pos rfl]
    rfl
  · rw [List.getElem?_set_ne (Ne.symm hl), if_neg hl, at?]
    rcases Nat.lt_or_ge l table.byLevel.length with hlt | hge
    · rw [List.getElem?_append_left hlt]
    · rw [List.getElem?_append_right hge, List.getElem?_replicate,
        List.getElem?_eq_none hge]
      split <;> rfl

theorem latest_record (table : Headings) (level : Nat) (mark : HeadingMark) :
    (table.record level mark).latest = some mark.id := rfl

end Headings

/-- The table holds what a search through the blocks would find. Every heading
on it has the order one, because the first of each level gets it and the
others take it over. -/
structure Remembers (table : Headings) (blocks : List Block) : Prop where
  at? : ∀ level, table.at? level =
    (nearest? blocks (·.isHeadingAt level)).map fun b => ⟨b.id, 1⟩
  latest : table.latest = (nearest? blocks (·.isHeading)).map (·.id)

/-- A block as a construct hands it over. -/
structure Block.Fresh (b : Block) : Prop where
  parent : b.parent = none
  children : b.children = []
  order : ∀ level order, b.kind = .heading level order → order = 1

theorem Remembers.empty : Remembers {} [] := ⟨fun _ => rfl, rfl⟩

theorem Remembers.congr {table : Headings} {blocks blocks' : List Block}
    (h : Remembers table blocks) (hsign : blocks.map Block.sign = blocks'.map Block.sign) :
    Remembers table blocks' where
  at? level := by
    have hid := nearest?_map_id_congr hsign fun k => k.level? == some level
    have hmark := congrArg (Option.map fun id => (⟨id, 1⟩ : HeadingMark)) hid
    rw [Option.map_map, Option.map_map] at hmark
    exact (h.at? level).trans hmark
  latest := h.latest.trans (nearest?_map_id_congr hsign fun k => k.level?.isSome)

/-- The table names the parent that a search finds, and gives a heading the
order that every heading has. -/
theorem Remembers.place {table : Headings} {blocks : List Block} (h : Remembers table blocks)
    {b : Block} (hb : ∀ level order, b.kind = .heading level order → order = 1) :
    ∃ table', place table b = (b, scannedParent blocks b, table') ∧
      Remembers table' (blocks ++ [b]) := by
  rw [RequestBook.place, scannedParent]
  cases hkind : b.kind with
  | heading level order =>
      have horder : ((table.at? level).elim 1 (·.order)) = 1 := by
        rw [h.at? level]
        cases nearest? blocks (·.isHeadingAt level) <;> rfl
      have hone := hb level order hkind
      subst hone
      have hparent : (if level > 1 then (table.at? (level - 1)).map (·.id) else none) =
          if level > 1 then (nearest? blocks (·.isHeadingAt (level - 1))).map (·.id)
          else none := by
        rw [h.at? (level - 1), Option.map_map]
        rfl
      refine ⟨table.record level ⟨b.id, 1⟩, ?_, ?_, ?_⟩
      · simp only [horder, hparent]
        rw [← hkind]
      · intro l
        rw [Headings.at?_record, nearest?_concat, h.at? l, Block.isHeadingAt, hkind]
        by_cases hl : l = level
        · subst hl
          simp [Block.Kind.level?]
        · simp [Block.Kind.level?, hl, Ne.symm hl]
      · rw [Headings.latest_record, nearest?_concat, Block.isHeading, hkind]
        rfl
  | quote | fence | paragraph =>
      refine ⟨table, by rw [h.latest], fun l => ?_, ?_⟩
      · rw [nearest?_concat, h.at? l, Block.isHeadingAt, hkind]
        rfl
      · rw [nearest?_concat, h.latest, Block.isHeading, hkind]
        rfl

/-! ## Hanging one block -/

/-- The numbers of the blocks that have a given parent, in order. -/
def below (blocks : List Block) (id : Nat) : List Nat :=
  (blocks.filter (·.parent == some id)).map (·.id)

/-- A block after another has come, which is its child when it is named as the
parent. -/
def Block.withChild (parent : Option Nat) (child : Nat) (above : Block) : Block :=
  if parent = some above.id then { above with children := above.children ++ [child] }
  else above

section WithChild

variable (parent : Option Nat) (child : Nat) (above : Block)

@[simp] theorem Block.withChild_id : (above.withChild parent child).id = above.id := by
  rw [withChild]; split <;> rfl

@[simp] theorem Block.withChild_kind : (above.withChild parent child).kind = above.kind := by
  rw [withChild]; split <;> rfl

@[simp] theorem Block.withChild_parent :
    (above.withChild parent child).parent = above.parent := by
  rw [withChild]; split <;> rfl

theorem Block.withChild_children : (above.withChild parent child).children =
    above.children ++ if parent = some above.id then [child] else [] := by
  rw [withChild]; split <;> simp

end WithChild

theorem sign_map_withChild (parent : Option Nat) (child : Nat) (blocks : List Block) :
    (blocks.map (Block.withChild parent child)).map Block.sign = blocks.map Block.sign := by
  rw [List.map_map]
  refine List.map_congr_left fun b _ => ?_
  rw [Function.comp_apply, Block.sign, Block.withChild_id, Block.withChild_kind, Block.sign]

theorem mem_below {blocks : List Block} {id n : Nat} :
    n ∈ below blocks id ↔ ∃ b ∈ blocks, b.id = n ∧ b.parent = some id := by
  simp only [below, List.mem_map, List.mem_filter, beq_iff_eq]
  constructor
  · rintro ⟨b, ⟨hb, hparent⟩, hid⟩
    exact ⟨b, hb, hid, hparent⟩
  · rintro ⟨b, hb, hid, hparent⟩
    exact ⟨b, ⟨hb, hparent⟩, hid⟩

theorem below_eq_nil {blocks : List Block} {id : Nat}
    (h : ∀ b ∈ blocks, b.parent ≠ some id) : below blocks id = [] := by
  refine List.eq_nil_iff_forall_not_mem.mpr fun n hn => ?_
  obtain ⟨b, hb, _, hparent⟩ := mem_below.mp hn
  exact h b hb hparent

theorem below_append (blocks more : List Block) (id : Nat) :
    below (blocks ++ more) id = below blocks id ++ below more id := by
  rw [below, List.filter_append, List.map_append, below, below]

theorem below_singleton (b : Block) (id : Nat) :
    below [b] id = if b.parent = some id then [b.id] else [] := by
  by_cases h : b.parent = some id
  · simp [below, h]
  · simp [below, h]

theorem below_concat (blocks : List Block) (b : Block) (id : Nat) :
    below (blocks ++ [b]) id = below blocks id ++ if b.parent = some id then [b.id] else [] := by
  rw [below_append, below_singleton]

theorem below_map_withChild (parent : Option Nat) (child : Nat) (blocks : List Block)
    (id : Nat) : below (blocks.map (Block.withChild parent child)) id = below blocks id := by
  rw [below, List.filter_map, List.map_map, below]
  simp only [Function.comp_def, Block.withChild_parent, Block.withChild_id]

/-- Hanging a block touches only the block that has the parent's number, and
there is one. -/
theorem hang_eq {blocks : List Block} (hnum : Numbered blocks) {b : Block} (hb : b.Fresh)
    {parent : Option Nat} (hparent : ∀ id, parent = some id → ∃ above ∈ blocks, above.id = id) :
    hang blocks b parent =
      blocks.map (Block.withChild parent b.id) ++ [{ b with parent := parent }] := by
  rw [hang]
  cases parent with
  | none =>
      have hsame : blocks.map (Block.withChild none b.id) = blocks :=
        (List.map_congr_left fun _ _ => rfl).trans (List.map_id blocks)
      simp only [Option.bind_none]
      rw [hsame, ← hb.parent]
  | some id =>
      obtain ⟨above, hmem, rfl⟩ := hparent id rfl
      obtain ⟨i, hi⟩ := List.mem_iff_getElem?.mp hmem
      have hpos := (position?_eq_some_iff hnum).mpr ⟨above, hi, rfl⟩
      simp only [Option.bind_some, hpos, Option.map_some]
      rw [hnum.modify_eq_map hi]
      congr 1
      refine List.map_congr_left fun x _ => ?_
      rw [Block.withChild]
      by_cases hx : x.id = above.id
      · rw [if_pos hx, if_pos (by rw [hx])]
      · rw [if_neg hx, if_neg fun h => hx (Option.some.inj h).symm]

/-! ## Documents as they are linked -/

/-- What holds of blocks that have been hung: every parent is the answer of a
search backwards, and every block has as children those that name it. -/
structure Hung (blocks : List Block) : Prop where
  numbered : Numbered blocks
  parents : ∀ i block, blocks[i]? = some block →
    block.parent = scannedParent (blocks.take i) block
  children : ∀ block ∈ blocks, block.children = below blocks block.id
  orders : ∀ block ∈ blocks, ∀ level order, block.kind = .heading level order → order = 1

/-- The block before it was hung. -/
def Block.bare (b : Block) : Block := { b with parent := none, children := [] }

theorem Block.Fresh.bare {b : Block} (hb : b.Fresh) : b.bare = b := by
  rw [Block.bare, ← hb.parent, ← hb.children]

theorem Hung.empty : Hung [] where
  numbered := List.Pairwise.nil
  parents := by simp
  children := by simp
  orders := by simp

/-- A parent comes earlier, with a smaller number. -/
theorem Hung.parent_lt {blocks : List Block} (h : Hung blocks) {b : Block} (hb : b ∈ blocks)
    {id : Nat} (hparent : b.parent = some id) :
    ∃ above ∈ blocks, above.id = id ∧ above.id < b.id ∧ above.isHeading = true ∧
      ∀ level, b.kind.level? = some level →
        1 < level ∧ above.isHeadingAt (level - 1) = true := by
  obtain ⟨i, hi⟩ := List.mem_iff_getElem?.mp hb
  rw [h.parents i b hi] at hparent
  obtain ⟨above, hmem, hid, hheading, hlevel⟩ := scannedParent_some hparent
  obtain ⟨j, hj⟩ := List.mem_iff_getElem?.mp hmem
  have hji : j < i := by
    have := (List.getElem?_eq_some_iff.mp hj).1
    rw [List.length_take] at this
    omega
  rw [List.getElem?_take_of_lt hji] at hj
  exact ⟨above, List.mem_of_getElem? hj, hid, h.numbered.lt_of_getElem? hj hi hji, hheading,
    hlevel⟩

/-- One more block keeps what holds. The parent that the search finds is among
the blocks, and the new block is not yet named by any. -/
theorem Hung.add {blocks : List Block} (h : Hung blocks) {b : Block} (hb : b.Fresh)
    (hlast : ∀ x ∈ blocks, x.id < b.id) :
    Hung (hang blocks b (scannedParent blocks b)) := by
  have hparent : ∀ id, scannedParent blocks b = some id → ∃ above ∈ blocks, above.id = id :=
    fun id hid => exists_of_scannedParent hid
  have hnone : below (blocks ++ [{ b with parent := scannedParent blocks b }]) b.id = [] := by
    refine below_eq_nil fun x hx hself => ?_
    rcases List.mem_append.mp hx with hx | hx
    · obtain ⟨above, _, hid, hlt, _⟩ := h.parent_lt hx hself
      have := hlast x hx
      omega
    · rw [List.mem_singleton.mp hx] at hself
      obtain ⟨above, hmem, hid⟩ := hparent b.id hself
      have := hlast above hmem
      omega
  rw [hang_eq h.numbered hb hparent]
  refine ⟨?_, ?_, ?_, ?_⟩
  · rw [Numbered, List.pairwise_append]
    refine ⟨List.pairwise_map.mpr ?_, List.pairwise_singleton _ _, ?_⟩
    · simp only [Block.withChild_id]
      exact h.numbered
    · intro x hx y hy
      obtain ⟨x', hx', rfl⟩ := List.mem_map.mp hx
      rw [List.mem_singleton.mp hy, Block.withChild_id]
      exact hlast x' hx'
  · intro i block hi
    rcases Nat.lt_or_ge i blocks.length with hlt | hge
    · rw [List.getElem?_append_left (by rwa [List.length_map]), List.getElem?_map,
        Option.map_eq_some_iff] at hi
      obtain ⟨old, hold, rfl⟩ := hi
      rw [List.take_append_of_le_length (by rw [List.length_map]; omega), ← List.map_take,
        Block.withChild_parent, h.parents i old hold]
      exact scannedParent_congr (sign_map_withChild _ _ _).symm
        (Block.withChild_kind _ _ _).symm
    · rw [List.getElem?_append_right (by rwa [List.length_map]), List.length_map] at hi
      have hi0 : i - blocks.length = 0 := by
        have := (List.getElem?_eq_some_iff.mp hi).1
        rw [List.length_singleton] at this
        omega
      have hilen : i = (blocks.map (Block.withChild (scannedParent blocks b) b.id)).length := by
        rw [List.length_map]
        omega
      rw [hi0] at hi
      cases hi
      rw [hilen, List.take_left]
      exact scannedParent_congr (sign_map_withChild _ _ _).symm rfl
  · intro block hblock
    rcases List.mem_append.mp hblock with hblock | hblock
    · obtain ⟨old, hold, rfl⟩ := List.mem_map.mp hblock
      rw [below_concat, below_map_withChild, Block.withChild_id, Block.withChild_children,
        h.children old hold]
    · rw [List.mem_singleton.mp hblock]
      simp only [below_concat, below_map_withChild] at hnone ⊢
      rw [hnone]
      exact hb.children
  · intro block hblock
    rcases List.mem_append.mp hblock with hblock | hblock
    · obtain ⟨old, hold, rfl⟩ := List.mem_map.mp hblock
      rw [Block.withChild_kind]
      exact h.orders old hold
    · rw [List.mem_singleton.mp hblock]
      exact hb.order

theorem bare_map_withChild (parent : Option Nat) (child : Nat) (blocks : List Block) :
    (blocks.map (Block.withChild parent child)).map Block.bare = blocks.map Block.bare := by
  rw [List.map_map]
  refine List.map_congr_left fun b _ => ?_
  rw [Function.comp_apply, Block.withChild]
  split <;> rfl

/-- The state between two blocks: what was hung is hung right, and the table
remembers it. -/
structure Hanging.Sound (state : Hanging) : Prop where
  hung : Hung state.blocks
  remembers : Remembers state.table state.blocks

theorem Hanging.Sound.add {state : Hanging} (h : state.Sound) {b : Block} (hb : b.Fresh)
    (hlast : ∀ x ∈ state.blocks, x.id < b.id) :
    (state.add b).Sound ∧
      (state.add b).blocks.map Block.bare = state.blocks.map Block.bare ++ [b] := by
  obtain ⟨table, hplace, hremembers⟩ := h.remembers.place hb.order
  have hparent : ∀ id, scannedParent state.blocks b = some id →
      ∃ above ∈ state.blocks, above.id = id := fun id hid => exists_of_scannedParent hid
  have hadd : state.add b = ⟨hang state.blocks b (scannedParent state.blocks b), table⟩ := by
    rw [Hanging.add, hplace]
  rw [hadd]
  refine ⟨⟨h.hung.add hb hlast, hremembers.congr ?_⟩, ?_⟩
  · simp only []
    rw [hang_eq h.hung.numbered hb hparent, List.map_append, List.map_append,
      sign_map_withChild]
    rfl
  · simp only []
    rw [hang_eq h.hung.numbered hb hparent, List.map_append, bare_map_withChild,
      ← hb.bare]
    rfl

theorem Hanging.Sound.foldl {rest : List Block} (hfresh : ∀ b ∈ rest, b.Fresh)
    (hnum : Numbered rest) {state : Hanging} (h : state.Sound)
    (hlast : ∀ x ∈ state.blocks, ∀ b ∈ rest, x.id < b.id) :
    (rest.foldl Hanging.add state).Sound ∧
      (rest.foldl Hanging.add state).blocks.map Block.bare =
        state.blocks.map Block.bare ++ rest := by
  induction rest generalizing state with
  | nil => exact ⟨h, by rw [List.append_nil]; rfl⟩
  | cons b rest ih =>
      obtain ⟨hb, hrest⟩ := List.forall_mem_cons.mp hfresh
      obtain ⟨hfirst, hnum⟩ := List.pairwise_cons.mp hnum
      obtain ⟨hadd, hbare⟩ := h.add hb fun x hx => hlast x hx b List.mem_cons_self
      have hafter : ∀ x ∈ (state.add b).blocks, ∀ c ∈ rest, x.id < c.id := by
        intro x hx c hc
        have hxb : x.bare ∈ state.blocks.map Block.bare ++ [b] :=
          hbare ▸ List.mem_map_of_mem hx
        have hid : x.id = x.bare.id := rfl
        rcases List.mem_append.mp hxb with hold | hnew
        · obtain ⟨y, hy, hyx⟩ := List.mem_map.mp hold
          rw [hid, ← hyx]
          exact hlast y hy c (List.mem_cons_of_mem _ hc)
        · rw [hid, List.mem_singleton.mp hnew]
          exact hfirst c hc
      obtain ⟨hsound, hall⟩ := ih hrest hnum hadd hafter
      rw [List.foldl_cons]
      refine ⟨hsound, hall.trans ?_⟩
      rw [hbare, List.append_assoc, List.singleton_append]

/-- A whole document is hung, and hanging changes of a block no more than its
parent and its children. -/
theorem linked_spec {blocks : List Block} (hfresh : ∀ b ∈ blocks, b.Fresh)
    (hnum : Numbered blocks) :
    Hung (linked blocks) ∧ (linked blocks).map Block.bare = blocks := by
  have hempty : ({} : Hanging).Sound := ⟨Hung.empty, Remembers.empty⟩
  obtain ⟨hsound, hbare⟩ := hempty.foldl hfresh hnum (by simp)
  exact ⟨hsound.hung, hbare⟩

end RequestBook
