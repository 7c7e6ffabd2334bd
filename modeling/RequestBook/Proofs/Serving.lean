import RequestBook.Proofs.Naming
import RequestBook.Proofs.Taking

/-!
# A number serves once

Blocks that were not read from lines may name each other as they like: a number
may stand for several blocks or for none, a block may have itself for a child,
and children may go round in a circle. Whatever they name, a run over them reads
no number twice, as the heading of a field or as its value, and none that has
begun a section (`sections_servedOnce`).

The list of what is taken carries the proof. It is a ledger and nothing more:
what one number adds to it are the numbers of the field that it makes, each of
them new (`fieldsFrom_singleton`). Only the heading of a section is entered
without a look, and it may have served before; so the ledger may repeat itself
while what is served does not.
-/

namespace RequestBook

/-- The numbers that a field reads: that of its heading, and that of its value
if it has one. -/
def SectionField.served (field : SectionField) : List Nat :=
  field.heading.id :: field.value.toList.map (·.id)

/-- The numbers that the fields of a section read. -/
def Section.served (s : Section) : List Nat := s.fields.flatMap SectionField.served

/-- The numbers that are gone when a section has been read. -/
def Section.claimed (s : Section) : List Nat := s.heading.id :: s.served

/-! ## One field after the other -/

/-- Some numbers are served while others are taken: each once, none of them
taken before, and all of them taken afterwards. -/
structure Serves (taken served after : List Nat) : Prop where
  ledger : after = served.reverse ++ taken
  once : served.Nodup
  fresh : ∀ t ∈ served, t ∉ taken

theorem Serves.none (taken : List Nat) : Serves taken [] taken where
  ledger := rfl
  once := List.nodup_nil
  fresh := fun _ ht => nomatch ht

theorem Serves.append {taken served middle more after : List Nat}
    (h : Serves taken served middle) (h' : Serves middle more after) :
    Serves taken (served ++ more) after where
  ledger := by
    rw [h'.ledger, h.ledger, List.reverse_append, List.append_assoc]
  once := by
    refine List.nodup_append.mpr ⟨h.once, h'.once, fun t ht u hu heq => ?_⟩
    subst heq
    refine h'.fresh t hu ?_
    rw [h.ledger]
    exact List.mem_append_left _ (List.mem_reverse.mpr ht)
  fresh t ht := by
    rcases List.mem_append.mp ht with ht | ht
    · exact h.fresh t ht
    · intro htaken
      refine h'.fresh t ht ?_
      rw [h.ledger]
      exact List.mem_append_right _ htaken

theorem Serves.mem_after {taken served after : List Nat} (h : Serves taken served after) {t : Nat} :
    t ∈ after ↔ t ∈ served ∨ t ∈ taken := by
  rw [h.ledger, List.mem_append, List.mem_reverse]

theorem untaken?_eq_some_iff {blocks : List Block} {taken : List Nat} {id : Nat} {b : Block} :
    untaken? blocks taken id = some b ↔ id ∉ taken ∧ blockNumbered? blocks id = some b := by
  by_cases h : id ∈ taken
  · simp [untaken?, h]
  · simp [untaken?, h]

section Fields

variable (blocks : List Block) (taken : List Nat)

/-- What one number does. If it is taken, or names no field, it does nothing;
otherwise it makes a field, which serves it. -/
theorem fieldsFrom_singleton (id : Nat) :
    Serves taken ((fieldsFrom blocks [id] taken).1.flatMap SectionField.served)
        (fieldsFrom blocks [id] taken).2 ∧
      ((blockNumbered? blocks id).bind (fieldUnder? blocks) ≠ none →
        id ∈ (fieldsFrom blocks [id] taken).2) := by
  by_cases hid : id ∈ taken
  · have hnone : untaken? blocks taken id = none := by simp [untaken?, hid]
    rw [fieldsFrom, hnone]
    exact ⟨.none taken, fun _ => hid⟩
  cases hfield : (blockNumbered? blocks id).bind (fieldUnder? blocks) with
  | none =>
      rw [fieldsFrom_skip hfield]
      exact ⟨.none taken, fun hsome => absurd rfl hsome⟩
  | some field =>
      obtain ⟨heading, hnum, hunder⟩ := Option.bind_eq_some_iff.mp hfield
      obtain ⟨hlevel, valueId, more, hchildren, -⟩ := fieldUnder?_eq_some hunder
      have hname := blockNumbered?_id hnum
      rw [fieldsFrom, untaken?_of_not_mem hid, hnum]
      simp only [hlevel, hchildren]
      cases hvalue : untaken? blocks (id :: taken) valueId with
      | none =>
          refine ⟨⟨?_, ?_, ?_⟩, fun _ => List.mem_cons_self⟩
          · simp [fieldsFrom, SectionField.served, hname]
          · simp [fieldsFrom, SectionField.served]
          · simpa [fieldsFrom, SectionField.served, hname] using hid
      | some value =>
          obtain ⟨hfresh, hvalueNum⟩ := untaken?_eq_some_iff.mp hvalue
          have hvalueName := blockNumbered?_id hvalueNum
          rw [List.mem_cons, not_or] at hfresh
          refine ⟨⟨?_, ?_, ?_⟩, fun _ => List.mem_cons_of_mem _ List.mem_cons_self⟩
          · simp [fieldsFrom, SectionField.served, hname, hvalueName]
          · simpa [fieldsFrom, SectionField.served, hname, hvalueName] using Ne.symm hfresh.1
          · simpa [fieldsFrom, SectionField.served, hname, hvalueName] using ⟨hid, hfresh.2⟩

/-- What some numbers do, and afterwards no field that they name is left. -/
theorem fieldsFrom_serves (ids : List Nat) :
    Serves taken ((fieldsFrom blocks ids taken).1.flatMap SectionField.served)
        (fieldsFrom blocks ids taken).2 ∧
      ∀ id ∈ ids, (blockNumbered? blocks id).bind (fieldUnder? blocks) ≠ none →
        id ∈ (fieldsFrom blocks ids taken).2 := by
  induction ids generalizing taken with
  | nil => exact ⟨.none taken, fun _ hid => nomatch hid⟩
  | cons id ids ih =>
      obtain ⟨hfirst, hown⟩ := fieldsFrom_singleton blocks taken id
      obtain ⟨hrest, hothers⟩ := ih (fieldsFrom blocks [id] taken).2
      rw [fieldsFrom_cons]
      refine ⟨?_, fun other hmem hnames => ?_⟩
      · rw [List.flatMap_append]
        exact hfirst.append hrest
      · rcases List.mem_cons.mp hmem with rfl | hmem
        · exact hrest.mem_after.mpr (.inr (hown hnames))
        · exact hothers other hmem hnames

end Fields

/-! ## One section after the other -/

/-- Some sections were found among the blocks, with some numbers taken before.
-/
structure ServedOnce (blocks : List Block) (taken : List Nat) (found : List Section) : Prop where
  /-- No number is read twice, by two fields of one section or of two, or as
  heading and value of one field. -/
  once : (found.flatMap Section.served).Nodup
  fresh : ∀ t ∈ found.flatMap Section.served, t ∉ taken
  /-- A number that has begun a section is read neither by that section nor
  by a later one. -/
  begun : found.Pairwise fun s later => s.heading.id ∉ later.served
  own : ∀ s ∈ found, s.heading.id ∉ s.served
  /-- Nothing else stands in the way: a field that a section names is read
  there, unless its number was read before or has begun a section. -/
  none_left : ∀ earlier s later, found = earlier ++ s :: later → ∀ id ∈ s.heading.children,
    ∀ b, blockNumbered? blocks id = some b → b.isHeadingAt fieldLevel = true →
      b.hasChildren = true → id ∈ taken ∨ id ∈ (earlier ++ [s]).flatMap Section.claimed

theorem fieldUnder?_ne_none {blocks : List Block} {b : Block}
    (hlevel : b.isHeadingAt fieldLevel = true) (hchildren : b.hasChildren = true) :
    fieldUnder? blocks b ≠ none := by
  intro hnone
  rcases fieldUnder?_eq_none hnone with hno | hno
  · rw [hlevel] at hno
    cases hno
  · rw [Block.hasChildren, hno] at hchildren
    cases hchildren

/-- One more section in front keeps what holds. -/
theorem ServedOnce.cons {blocks : List Block} {taken after : List Nat} {s : Section}
    {found : List Section} (hserves : Serves (s.heading.id :: taken) s.served after)
    (hread : ∀ id ∈ s.heading.children,
      (blockNumbered? blocks id).bind (fieldUnder? blocks) ≠ none → id ∈ after)
    (h : ServedOnce blocks after found) : ServedOnce blocks taken (s :: found) where
  once := by
    rw [List.flatMap_cons]
    refine List.nodup_append.mpr ⟨hserves.once, h.once, fun t ht u hu heq => ?_⟩
    subst heq
    exact h.fresh t hu (hserves.mem_after.mpr (.inl ht))
  fresh t ht := by
    rw [List.flatMap_cons, List.mem_append] at ht
    intro htaken
    rcases ht with ht | ht
    · exact hserves.fresh t ht (List.mem_cons_of_mem _ htaken)
    · exact h.fresh t ht (hserves.mem_after.mpr (.inr (List.mem_cons_of_mem _ htaken)))
  begun := by
    refine List.pairwise_cons.mpr ⟨fun later hlater hmem => ?_, h.begun⟩
    exact h.fresh _ (List.mem_flatMap.mpr ⟨later, hlater, hmem⟩)
      (hserves.mem_after.mpr (.inr List.mem_cons_self))
  own other hother := by
    rcases List.mem_cons.mp hother with rfl | hother
    · exact fun hmem => hserves.fresh _ hmem List.mem_cons_self
    · exact h.own other hother
  none_left earlier other later hsplit id hid b hnum hlevel hchildren := by
    -- what is gone behind the first section was taken before or is claimed by it
    have hafter : id ∈ after → id ∈ s.claimed ∨ id ∈ taken := by
      intro hmem
      rw [hserves.mem_after, List.mem_cons] at hmem
      rw [Section.claimed, List.mem_cons]
      rcases hmem with hserved | hheading | htaken
      · exact .inl (.inr hserved)
      · exact .inl (.inl hheading)
      · exact .inr htaken
    cases earlier with
    | nil =>
        rw [List.nil_append, List.cons.injEq] at hsplit
        obtain ⟨rfl, rfl⟩ := hsplit
        have hnames : (blockNumbered? blocks id).bind (fieldUnder? blocks) ≠ none := by
          rw [hnum, Option.bind_some]
          exact fieldUnder?_ne_none hlevel hchildren
        rw [List.nil_append, List.flatMap_singleton]
        exact (hafter (hread id hid hnames)).symm
    | cons first earlier =>
        rw [List.cons_append, List.cons.injEq] at hsplit
        obtain ⟨rfl, hsplit⟩ := hsplit
        rw [List.cons_append, List.flatMap_cons, List.mem_append]
        rcases h.none_left earlier other later hsplit id hid b hnum hlevel hchildren with
          hgone | hclaimed
        · exact (hafter hgone).elim (fun hs => .inr (.inl hs)) .inl
        · exact .inr (.inr hclaimed)

theorem sectionsFrom_servedOnce {blocks headings : List Block} {taken : List Nat} :
    ServedOnce blocks taken (sectionsFrom blocks headings taken) := by
  induction headings generalizing taken with
  | nil =>
      exact {
        once := List.nodup_nil
        fresh := fun _ ht => nomatch ht
        begun := .nil
        own := fun _ hs => nomatch hs
        none_left := fun _ _ _ hsplit => by simp [sectionsFrom] at hsplit }
  | cons heading headings ih =>
      obtain ⟨hserves, hread⟩ := fieldsFrom_serves blocks (heading.id :: taken) heading.children
      rw [sectionsFrom]
      exact .cons hserves hread ih

/-- Whatever blocks there are, every number serves at most once over the whole
run. The sections are those of all headings that begin one, and a field that a
section names goes unread only where its number is gone. -/
theorem sections_servedOnce (blocks : List Block) :
    (sections blocks).map (·.heading) = blocks.filter beginsSection ∧
      ServedOnce blocks [] (sections blocks) :=
  ⟨sectionsFrom_heading.1, sectionsFrom_servedOnce⟩

-- A field that is its own value, a section that is its own child and the value
-- of a field of the next, a number of two blocks and one of none.
example :
    let blocks : List Block :=
      [⟨1, .heading 2 1, ['R'], [1], none, [1, 2, 3, 2, 9]⟩,
        ⟨2, .heading 3 1, ['a'], [2], some 1, [2]⟩,
        ⟨3, .heading 3 1, ['b'], [3], some 1, [5]⟩,
        ⟨4, .heading 2 1, ['S'], [4], some 5, [5, 6, 3]⟩,
        ⟨5, .paragraph, ['c'], [5], none, []⟩,
        ⟨5, .heading 3 1, ['d'], [6], some 4, [3]⟩,
        ⟨6, .heading 3 1, ['e'], [7], some 4, [1]⟩]
    (sections blocks).map Section.served = [[2, 3, 5], [6]] := by
  decide

end RequestBook
