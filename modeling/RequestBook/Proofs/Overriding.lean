import Mathlib.Data.List.Flatten
import RequestBook.Book
import RequestBook.Proofs.Parts
import RequestBook.Proofs.Renumbering

/-!
# The last field wins

Where two fields of a section are for one part of its request, the earlier one
may be struck from the section when the later one settles the part: no request
of the document changes (`readText_lastFieldWins`). A later request line that
cannot be read settles nothing, and there the earlier one shows through
(`earlier_line_shows_through`).

A document with a number struck from one list of children hangs together no
longer, since the child goes on naming its parent. What is left of `Hung` is
enough: what a section takes is part of what it took before.
-/

namespace RequestBook

/-- The block, with a number struck from its children if it is the one with
the number `owner`. -/
def Block.without (owner child : Nat) (b : Block) : Block :=
  { b with children := if b.id = owner then b.children.filter (· ≠ child) else b.children }

/-- The field with both of its blocks so changed. -/
def SectionField.without (owner child : Nat) (field : SectionField) : SectionField :=
  ⟨field.heading.without owner child, field.value.map (Block.without owner child)⟩

section Without

variable {owner child : Nat} {b : Block}

@[simp] theorem Block.without_id : (b.without owner child).id = b.id := rfl

@[simp] theorem Block.without_content : (b.without owner child).content = b.content := rfl

@[simp] theorem Block.without_parent : (b.without owner child).parent = b.parent := rfl

@[simp] theorem Block.without_isHeadingAt (level : Nat) :
    (b.without owner child).isHeadingAt level = b.isHeadingAt level := rfl

theorem Block.without_of_ne (h : b.id ≠ owner) : b.without owner child = b := by
  rw [Block.without, if_neg h]

theorem Block.without_children (h : b.id = owner) :
    (b.without owner child).children = b.children.filter (· ≠ child) := if_pos h

theorem Block.without_children_sublist (b : Block) :
    (b.without owner child).children.Sublist b.children := by
  by_cases h : b.id = owner
  · rw [Block.without_children h]
    exact List.filter_sublist
  · rw [Block.without_of_ne h]

theorem Block.without_repeats (owner child : Nat) (b : Block) :
    (b.without owner child).Repeats 0 0 b where
  id := rfl
  kind := rfl
  content := rfl
  firstLine := rfl

theorem warningsMoved_zero {α : Type} (result : α × List Diagnostic) :
    warningsMoved 0 result = result := by
  have hmoved : Diagnostic.moved 0 = id := rfl
  rw [warningsMoved, hmoved, List.map_id]

/-- No field reads the children of its blocks. -/
theorem applyField_without (field : SectionField) (r : Request) :
    applyField r (field.without owner child) = applyField r field := by
  obtain ⟨heading, value⟩ := field
  have hheading := heading.without_repeats owner child
  cases value with
  | none => rfl
  | some value =>
      have hrepeats := applyField_repeats r hheading (value.without_repeats owner child)
      rw [warningsMoved_zero] at hrepeats
      exact hrepeats

end Without

/-! ## A document without one child -/

/-- The blocks, with a number struck from the children of one of them. -/
def withoutChild (blocks : List Block) (owner child : Nat) : List Block :=
  blocks.map (Block.without owner child)

section Names

variable {blocks : List Block} {owner child : Nat}

theorem blockNumbered?_without (id : Nat) :
    blockNumbered? (withoutChild blocks owner child) id =
      (blockNumbered? blocks id).map (Block.without owner child) := by
  have hid : (fun b : Block => b.id == id) ∘ Block.without owner child = (·.id == id) := by
    funext b
    simp only [Function.comp_apply, Block.without_id]
  rw [blockNumbered?, withoutChild, ← List.map_reverse, List.find?_map, hid, ← blockNumbered?]

theorem sectionName_without (b : Block) :
    sectionName (withoutChild blocks owner child) (b.without owner child) =
      sectionName blocks b := by
  rw [sectionName, sectionName, Block.without_parent, Block.without_content]
  cases b.parent with
  | none => rfl
  | some id =>
      simp only [Option.bind_some, blockNumbered?_without]
      cases blockNumbered? blocks id with
      | none => rfl
      | some above => simp only [Option.map_some, Block.without_content]

end Names

namespace Hung

variable {blocks : List Block} (h : Hung blocks) {owner b : Block} (howner : owner ∈ blocks)
  (hlevel : owner.isHeadingAt sectionLevel = true) (child : Nat)

include h howner hlevel

/-- The heading of a section is no heading of a field. -/
theorem ne_of_fieldLevel (hb : b ∈ blocks) (hfield : b.isHeadingAt fieldLevel = true) :
    b.id ≠ owner.id := by
  intro hid
  rw [h.numbered.eq_of_id hb howner hid] at hfield
  exact absurd (level_eq hlevel hfield) (by decide)

theorem fieldUnder?_without (hb : b ∈ blocks) :
    fieldUnder? (withoutChild blocks owner.id child) (b.without owner.id child) =
      (fieldUnder? blocks b).map (SectionField.without owner.id child) := by
  rw [fieldUnder?, fieldUnder?, Block.without_isHeadingAt]
  cases hfield : b.isHeadingAt fieldLevel with
  | false => rfl
  | true =>
      have hne := h.ne_of_fieldLevel howner hlevel hb hfield
      rw [Block.without_of_ne hne]
      cases b.children with
      | nil => rfl
      | cons valueId more =>
          simp only [blockNumbered?_without, Option.map_some, SectionField.without,
            Block.without_of_ne hne]

theorem fieldsOf_without (ids : List Nat) :
    fieldsOf (withoutChild blocks owner.id child) ids =
      (fieldsOf blocks ids).map (SectionField.without owner.id child) := by
  rw [fieldsOf, fieldsOf, List.map_filterMap]
  refine List.filterMap_congr fun id _ => ?_
  rw [blockNumbered?_without]
  cases hnum : blockNumbered? blocks id with
  | none => rfl
  | some b =>
      have hb := ((blockNumbered?_eq_some_iff h.numbered).mp hnum).1
      exact h.fieldUnder?_without howner hlevel child hb

theorem takenFor_without (ids : List Nat) :
    takenFor (withoutChild blocks owner.id child) ids = takenFor blocks ids := by
  refine List.flatMap_congr fun id _ => ?_
  rw [blockNumbered?_without]
  cases hnum : blockNumbered? blocks id with
  | none => rfl
  | some b =>
      have hb := ((blockNumbered?_eq_some_iff h.numbered).mp hnum).1
      rw [Option.map_some, Option.elim_some, Option.elim_some, takenUnder, takenUnder,
        h.fieldUnder?_without howner hlevel child hb]
      cases hfield : fieldUnder? blocks b with
      | none => rfl
      | some field =>
          have hne := h.ne_of_fieldLevel howner hlevel hb (fieldUnder?_eq_some hfield).1
          rw [Option.map_some, Block.without_of_ne hne]

/-- Less is taken than before: fewer children name what to take. -/
theorem takenBySection_without :
    (takenBySection (withoutChild blocks owner.id child) (b.without owner.id child)).Sublist
      (takenBySection blocks b) := by
  rw [takenBySection, takenBySection, Block.without_id, h.takenFor_without howner hlevel]
  exact (b.without_children_sublist.flatMap _).cons_cons b.id

/-- The sections are those of before, each under its changed heading. -/
theorem sections_without (hmore : owner.children.filter (· ≠ child) ≠ []) :
    sections (withoutChild blocks owner.id child) = (blocks.filter beginsSection).map fun b =>
      sectionOf (withoutChild blocks owner.id child) (b.without owner.id child) := by
  have hbegins : ∀ b ∈ blocks,
      (beginsSection ∘ Block.without owner.id child) b = beginsSection b := by
    intro b hb
    rw [Function.comp_apply, beginsSection, beginsSection, Block.without_isHeadingAt]
    -- only the owner loses a child, and it keeps another one
    by_cases hid : b.id = owner.id
    · have hkept : b.children.filter (· ≠ child) ≠ [] := by
        rw [h.numbered.eq_of_id hb howner hid]
        exact hmore
      have hchildren : b.children ≠ [] := fun hnil => hkept (by rw [hnil]; rfl)
      simp only [Block.hasChildren, Block.without_children hid, List.isEmpty_eq_false_iff.mpr hkept,
        List.isEmpty_eq_false_iff.mpr hchildren]
    · rw [Block.without_of_ne hid]
  have hfilter : (withoutChild blocks owner.id child).filter beginsSection =
      (blocks.filter beginsSection).map (Block.without owner.id child) := by
    rw [withoutChild, List.filter_map, List.filter_congr hbegins]
  -- what is left is not hung any more, but nothing in it is taken twice either
  have hless : (((blocks.filter beginsSection).map (Block.without owner.id child)).flatMap
      (takenBySection (withoutChild blocks owner.id child))).Sublist
      ((blocks.filter beginsSection).flatMap (takenBySection blocks)) := by
    rw [List.flatMap_map]
    exact List.Sublist.flatMap_right _ fun b _ => h.takenBySection_without howner hlevel child
  rw [sections, hfilter,
    sectionsFrom_eq (h.takenBySection_nodup.sublist hless) fun _ _ => List.not_mem_nil,
    List.map_map]
  rfl

/-- A section asks for what the fields ask for that are left of it. -/
theorem request_without (b : Block) :
    (sectionOf (withoutChild blocks owner.id child) (b.without owner.id child)).request =
      applyFields { name := sectionName blocks b }
        (fieldsOf blocks (b.without owner.id child).children) := by
  have hfields := h.fieldsOf_without howner hlevel child (b.without owner.id child).children
  rw [Section.request, sectionOf, sectionName_without, hfields,
    applyFields_map_congr fun field r => applyField_without field r, List.map_id']

end Hung

/-! ## The fields without one -/

section Striking

variable {blocks : List Block} {ids : List Nat}

/-- A field is found under the number of its heading. -/
theorem heading_id_of_named {id : Nat} {field : SectionField}
    (h : (blockNumbered? blocks id).bind (fieldUnder? blocks) = some field) :
    field.heading.id = id := by
  obtain ⟨heading, hnum, hunder⟩ := Option.bind_eq_some_iff.mp h
  obtain ⟨-, valueId, more, -, rfl⟩ := fieldUnder?_eq_some hunder
  exact blockNumbered?_id hnum

theorem sublist_ids_fieldsOf : ((fieldsOf blocks ids).map (·.heading.id)).Sublist ids := by
  induction ids with
  | nil => exact List.Sublist.slnil
  | cons id ids ih =>
      rw [fieldsOf, List.filterMap_cons]
      cases hnamed : (blockNumbered? blocks id).bind (fieldUnder? blocks) with
      | none => exact ih.cons id
      | some field =>
          rw [List.map_cons, heading_id_of_named hnamed]
          exact ih.cons_cons id

theorem fieldsOf_filter (child : Nat) :
    fieldsOf blocks (ids.filter (· ≠ child)) =
      (fieldsOf blocks ids).filter (·.heading.id ≠ child) := by
  rw [fieldsOf, fieldsOf, List.filterMap_filter, List.filter_filterMap]
  refine List.filterMap_congr fun id _ => ?_
  cases hnamed : (blockNumbered? blocks id).bind (fieldUnder? blocks) with
  | none => simp only [Option.filter_none, ite_self]
  | some field =>
      rw [Option.filter_some, heading_id_of_named hnamed]

/-- Struck by its number, a field goes and the others stay. -/
theorem fieldsOf_struck (hdistinct : ids.Nodup) {earlier more : List SectionField}
    {field : SectionField} (hfields : fieldsOf blocks ids = earlier ++ field :: more) :
    fieldsOf blocks (ids.filter (· ≠ field.heading.id)) = earlier ++ more := by
  have hids : ((fieldsOf blocks ids).map (·.heading.id)).Nodup :=
    hdistinct.sublist sublist_ids_fieldsOf
  rw [hfields, List.map_append, List.map_cons, List.nodup_append] at hids
  obtain ⟨-, hmore, hapart⟩ := hids
  obtain ⟨hfresh, -⟩ := List.nodup_cons.mp hmore
  have hbefore : ∀ other ∈ earlier, decide (other.heading.id ≠ field.heading.id) = true := by
    intro other hother
    exact decide_eq_true
      (hapart other.heading.id (List.mem_map_of_mem hother) field.heading.id List.mem_cons_self)
  have hafter : ∀ other ∈ more, decide (other.heading.id ≠ field.heading.id) = true := by
    intro other hother
    refine decide_eq_true fun heq => hfresh ?_
    rw [← heq]
    exact List.mem_map_of_mem hother
  rw [fieldsOf_filter, hfields, List.filter_append,
    List.filter_cons_of_neg (by simp), List.filter_eq_self.mpr hbefore,
    List.filter_eq_self.mpr hafter]

end Striking

/-! ## Striking a field that a later one overrides -/

section Overridden

variable {blocks : List Block} {s : Section} {earlier later : List SectionField}
  {field : SectionField} {part : Part}

/-- Every section asks for what it asked for before, the one that the field is
struck from as well. -/
theorem Hung.asked_without (h : Hung blocks) (hs : s ∈ sections blocks)
    (hfields : s.fields = earlier ++ field :: later) (htarget : field.target? = some part)
    (hlater : ∃ last ∈ later, last.Settles part) :
    (sections (withoutChild blocks s.heading.id field.heading.id)).map
        (fun s => (s.name, s.request.1)) =
      (sections blocks).map fun s => (s.name, s.request.1) := by
  rw [h.sections_eq] at hs
  obtain ⟨owner, howner, rfl⟩ := List.mem_map.mp hs
  obtain ⟨hmem, hbegins⟩ := List.mem_filter.mp howner
  have hlevel := level_of_beginsSection hbegins
  have hnamed : fieldsOf blocks owner.children = earlier ++ field :: later := hfields
  have hkept := fieldsOf_struck (h.children_nodup hmem) hnamed
  have hmore : owner.children.filter (· ≠ field.heading.id) ≠ [] := by
    intro hnil
    -- the field that overrides is still named
    obtain ⟨last, hlast, -⟩ := hlater
    rw [hnil] at hkept
    have hnone : last ∈ fieldsOf blocks [] := hkept ▸ List.mem_append_right _ hlast
    cases hnone
  show (sections (withoutChild blocks owner.id field.heading.id)).map _ = _
  rw [h.sections_without hmem hlevel _ hmore, h.sections_eq, List.map_map, List.map_map]
  refine List.map_congr_left fun b hb => ?_
  have hb := (List.mem_filter.mp hb).1
  refine Prod.ext (sectionName_without b) ?_
  rw [Function.comp_apply, h.request_without hmem hlevel]
  show _ = (applyFields { name := sectionName blocks b } (fieldsOf blocks b.children)).1
  by_cases hid : b.id = owner.id
  · obtain rfl := h.numbered.eq_of_id hb hmem hid
    rw [Block.without_children rfl, hkept, hnamed]
    exact (applyFields_without htarget hlater _).symm
  · rw [Block.without_of_ne hid]

/-- The last field that settles a part decides on it. -/
theorem get_of_last (hfields : s.fields = earlier ++ field :: later)
    (hsettles : field.Settles part) (hlater : ∀ other ∈ later, ¬ other.Settles part)
    (r : Request) : s.request.1.get part = (applyField r field).1.get part := by
  rw [Section.request, hfields]
  exact applyFields_last hsettles hlater _ r

end Overridden

/-- How the fields of a section share in its request. -/
structure LastFieldWins (blocks : List Block) : Prop where
  /-- A field may be dropped from its section when a later one settles the part
  that it is for. -/
  drop {s : Section} {earlier later : List SectionField} {field : SectionField} {part : Part}
    (hs : s ∈ sections blocks) (hfields : s.fields = earlier ++ field :: later)
    (htarget : field.target? = some part) (hlater : ∃ last ∈ later, last.Settles part) :
    (extract (withoutChild blocks s.heading.id field.heading.id)).requests =
      (extract blocks).requests
  /-- The last field that settles a part decides on it, as it would alone. -/
  decided {s : Section} {earlier later : List SectionField} {field : SectionField} {part : Part}
    (hs : s ∈ sections blocks) (hfields : s.fields = earlier ++ field :: later)
    (hsettles : field.Settles part) (hlater : ∀ other ∈ later, ¬ other.Settles part)
    (r : Request) : s.request.1.get part = (applyField r field).1.get part
  /-- Json that is decided on last and cannot be decoded leaves nothing. -/
  undecodable {s : Section} {earlier later : List SectionField} {field : SectionField}
    {part : Part} (hs : s ∈ sections blocks) (hfields : s.fields = earlier ++ field :: later)
    (htarget : field.target? = some part) (hline : part ≠ .line)
    (hlater : ∀ other ∈ later, other.target? ≠ some part) (r : Request)
    (hwarned : (applyField r field).2 ≠ []) :
    s.request.1.get part = Request.get { name := s.name } part
  /-- A part that no field settles is what it is in a new request. -/
  unset {s : Section} {part : Part} (hs : s ∈ sections blocks)
    (hunset : ∀ field ∈ s.fields, ¬ field.Settles part) :
    s.request.1.get part = Request.get { name := s.name } part

theorem readText_lastFieldWins (text : Text) :
    LastFieldWins (Grammar.standard.readText text).blocks where
  drop hs hfields htarget hlater := by
    have h : Hung (Grammar.standard.readText text).blocks := read_hung _
    have hasked := h.asked_without hs hfields htarget hlater
    rw [extract, extract, requests_foldl_add, requests_foldl_add, hasked]
  decided _ hfields hsettles hlater r := get_of_last hfields hsettles hlater r
  undecodable _ hfields htarget hline hlater r hwarned := by
    have hsettles : SectionField.Settles _ _ := ⟨htarget, fun h => absurd h hline⟩
    rw [get_of_last hfields hsettles (fun other hother h => hlater other hother h.1) r]
    exact get_of_warned htarget hline hwarned _
  unset _ hunset := applyFields_frame hunset _

/-- A later request line that cannot be read does not override the earlier
one. -/
theorem earlier_line_shows_through :
    let blocks := (Grammar.standard.readText
      "## R\n### url\n> GET http://a\n### url\n> oops".toList).blocks
    ∃ s ∈ sections blocks, ∃ first ∈ s.fields.take 1,
      s.fields.map SectionField.target? = [some .line, some .line] ∧
      (extract blocks).requests.map (·.2.url) = ["http://a".toList] ∧
      (extract (withoutChild blocks s.heading.id first.heading.id)).requests.map (·.2.url) =
        [[]] := by
  decide +kernel

end RequestBook
