import Mathlib.Data.List.Forall2
import RequestBook.Extraction
import RequestBook.Proofs.Sections

/-!
# Numbers are only names

Blocks name each other by number, and nothing else is read off a number but the
order of two of them. So numbers may be changed, as long as they still increase:
blocks that hang below each other go on doing so under their new numbers
(`Hung.renumbered`), and what is extracted from them is the same to the letter
(`extract_renumbered`).

Blocks hang in one way. What a block was before it was hung, for all blocks,
decides the parents and then the children (`Hung.ext`), so to show that two
documents are equal it is enough to compare their blocks bare.
-/

namespace RequestBook

/-- A block with its own number changed, and the numbers of those it names. -/
def Block.renumbered (f : Nat → Nat) (b : Block) : Block :=
  { b with id := f b.id, parent := b.parent.map f, children := b.children.map f }

/-! ## Searching among other numbers -/

theorem scannedParent_map {f : Nat → Nat} {g : Block → Block}
    (hid : ∀ b, (g b).id = f b.id) (hkind : ∀ b, (g b).kind = b.kind)
    (before : List Block) (b : Block) :
    scannedParent (before.map g) (g b) = (scannedParent before b).map f := by
  have hnearest : ∀ q : Block.Kind → Bool,
      (nearest? (before.map g) fun x => q x.kind).map (·.id) =
        ((nearest? before fun x => q x.kind).map (·.id)).map f := by
    intro q
    rw [nearest?_map, Option.map_map, Option.map_map]
    simp only [Function.comp_def, hid, hkind]
  rw [scannedParent, scannedParent, hkind]
  cases b.kind with
  | heading level order =>
      simp only []
      split
      · exact hnearest fun k => k.level? == some (level - 1)
      · rfl
  | quote | fence | paragraph => exact hnearest fun k => k.level?.isSome

/-- Two lists whose blocks agree on what has a parent agree on what lies below
it. -/
theorem below_of_forall₂ {own part : List Block} {id id' : Nat} {f : Nat → Nat}
    (h : List.Forall₂ (fun x y => x.id = f y.id ∧ (x.parent = some id' ↔ y.parent = some id))
      own part) : below own id' = (below part id).map f := by
  induction h with
  | nil => rfl
  | @cons x y own part hxy rest ih =>
      rw [← List.singleton_append, below_append, below_singleton, ih,
        ← List.singleton_append (x := y), below_append, below_singleton, List.map_append]
      by_cases hparent : y.parent = some id
      · rw [if_pos hparent, if_pos (hxy.2.mpr hparent), hxy.1]
        rfl
      · rw [if_neg hparent, if_neg (mt hxy.2.mp hparent)]
        rfl

namespace Hung

/-- Bare blocks hang in one way. -/
theorem ext {own other : List Block} (h : Hung own) (h' : Hung other)
    (hbare : own.map Block.bare = other.map Block.bare) : own = other := by
  have hlength : own.length = other.length := by
    simpa using congrArg List.length hbare
  have hat : ∀ (i : Nat) (x y : Block), own[i]? = some x → other[i]? = some y →
      x.bare = y.bare := by
    intro i x y hx hy
    simpa [hx, hy] using congrArg (·[i]?) hbare
  have hparent : ∀ (i : Nat) (x y : Block), own[i]? = some x → other[i]? = some y →
      x.parent = y.parent := by
    intro i x y hx hy
    have hsign : (own.take i).map Block.sign = (other.take i).map Block.sign := by
      have htake := congrArg (List.map Block.sign) (congrArg (List.take i) hbare)
      simp only [← List.map_take, List.map_map] at htake ⊢
      exact htake
    rw [h.parents i x hx, h'.parents i y hy]
    exact scannedParent_congr hsign (congrArg Block.kind (hat i x y hx hy) :)
  have hbelow : ∀ id, below own id = (below other id).map fun n => n := by
    intro id
    refine below_of_forall₂ (List.forall₂_iff_get.mpr ⟨hlength, fun i hi hi' => ?_⟩)
    have hx := List.getElem?_eq_getElem hi
    have hy := List.getElem?_eq_getElem hi'
    rw [List.get_eq_getElem, List.get_eq_getElem, hparent i _ _ hx hy]
    exact ⟨(congrArg Block.id (hat i _ _ hx hy) :), Iff.rfl⟩
  refine List.ext_getElem hlength fun i hi hi' => ?_
  have hx := List.getElem?_eq_getElem hi
  have hy := List.getElem?_eq_getElem hi'
  have hsame := hat i _ _ hx hy
  have hid : own[i].id = other[i].id := (congrArg Block.id hsame :)
  have hchildren : own[i].children = other[i].children := by
    rw [h.children _ (List.getElem_mem hi), h'.children _ (List.getElem_mem hi'), hbelow, hid]
    exact List.map_id _
  have hup := hparent i _ _ hx hy
  generalize own[i] = x at hsame hchildren hup
  generalize other[i] = y at hsame hchildren hup
  cases x
  cases y
  simp only [Block.bare, Block.mk.injEq] at hsame hchildren hup ⊢
  exact ⟨hsame.1, hsame.2.1, hsame.2.2.1, hsame.2.2.2.1, hup, hchildren⟩

section Renumbered

variable {blocks : List Block} (h : Hung blocks) {f : Nat → Nat}
  (hf : ∀ a ∈ blocks, ∀ b ∈ blocks, a.id < b.id → f a.id < f b.id)

include hf

theorem renumbered_inj {a b : Block} (ha : a ∈ blocks) (hb : b ∈ blocks)
    (heq : f a.id = f b.id) : a.id = b.id := by
  rcases Nat.lt_trichotomy a.id b.id with hlt | hid | hgt
  · have := hf a ha b hb hlt
    omega
  · exact hid
  · have := hf b hb a ha hgt
    omega

include h

theorem renumbered : Hung (blocks.map (Block.renumbered f)) where
  numbered := by
    rw [Numbered, List.pairwise_map]
    exact h.numbered.imp_of_mem fun ha hb hlt => hf _ ha _ hb hlt
  parents i block hi := by
    rw [List.getElem?_map, Option.map_eq_some_iff] at hi
    obtain ⟨old, hold, rfl⟩ := hi
    rw [← List.map_take, scannedParent_map (g := Block.renumbered f) (f := f) (fun _ => rfl)
      (fun _ => rfl), ← h.parents i old hold]
    rfl
  children block hblock := by
    obtain ⟨b, hb, rfl⟩ := List.mem_map.mp hblock
    have hbelow : below (blocks.map (Block.renumbered f)) (f b.id) =
        (below blocks b.id).map f := by
      refine below_of_forall₂ (List.forall₂_map_left_iff.mpr (List.forall₂_same.mpr ?_))
      intro x hx
      refine ⟨rfl, ?_⟩
      rw [Block.renumbered, Option.map_eq_some_iff]
      constructor
      · rintro ⟨id, hparent, hid⟩
        obtain ⟨above, habove, rfl, _⟩ := h.parent_lt hx hparent
        rw [hparent, renumbered_inj hf habove hb hid]
      · exact fun hparent => ⟨b.id, hparent, rfl⟩
    rw [Block.renumbered]
    simp only []
    rw [hbelow, h.children b hb]
  orders block hblock := by
    obtain ⟨b, hb, rfl⟩ := List.mem_map.mp hblock
    exact h.orders b hb

/-! ## What is extracted -/

theorem blockNumbered?_renumbered {b : Block} (hb : b ∈ blocks) :
    blockNumbered? (blocks.map (Block.renumbered f)) (f b.id) = some (b.renumbered f) :=
  (h.renumbered hf).numbered.blockNumbered?_of_mem (List.mem_map_of_mem hb)

theorem sectionName_renumbered {heading : Block} (hheading : heading ∈ blocks) :
    sectionName (blocks.map (Block.renumbered f)) (heading.renumbered f) =
      sectionName blocks heading := by
  rw [sectionName, sectionName]
  cases hparent : heading.parent with
  | none => simp only [Block.renumbered, hparent, Option.map_none, Option.bind_none]
  | some id =>
      obtain ⟨above, habove, rfl, _⟩ := h.parent_lt hheading hparent
      have hnew := h.blockNumbered?_renumbered hf habove
      have hold := h.numbered.blockNumbered?_of_mem habove
      simp only [Block.renumbered, hparent, Option.map_some, Option.bind_some] at hnew ⊢
      simp only [hnew, hold]

end Renumbered

end Hung

/-- A field whose blocks have other numbers. -/
def SectionField.renumbered (f : Nat → Nat) (field : SectionField) : SectionField :=
  ⟨field.heading.renumbered f, field.value.map (Block.renumbered f)⟩

theorem applyFields_map_congr {α : Type} {f g : α → SectionField}
    (h : ∀ a r, applyField r (f a) = applyField r (g a)) {fields : List α} (r : Request) :
    applyFields r (fields.map f) = applyFields r (fields.map g) := by
  induction fields generalizing r with
  | nil => rfl
  | cons a fields ih => simp only [List.map_cons, applyFields, h, ih]

/-- No field reads a number. -/
theorem applyFields_renumbered (f : Nat → Nat) (r : Request) (fields : List SectionField) :
    applyFields r (fields.map (SectionField.renumbered f)) = applyFields r fields := by
  have hfield : ∀ (field : SectionField) (r : Request),
      applyField r (field.renumbered f) = applyField r (id field) := by
    intro field r
    rw [applyField, applyField, SectionField.renumbered, id]
    cases field.value with
    | none => rfl
    | some value => rfl
  rw [applyFields_map_congr hfield, List.map_id]

namespace Hung

variable {blocks : List Block} (h : Hung blocks) {f : Nat → Nat}
  (hf : ∀ a ∈ blocks, ∀ b ∈ blocks, a.id < b.id → f a.id < f b.id)

include h hf

theorem fieldUnder?_renumbered {heading : Block} (hheading : heading ∈ blocks) :
    fieldUnder? (blocks.map (Block.renumbered f)) (heading.renumbered f) =
      (fieldUnder? blocks heading).map (SectionField.renumbered f) := by
  have hlevel : (heading.renumbered f).isHeadingAt fieldLevel = heading.isHeadingAt fieldLevel :=
    rfl
  have hchildren : (heading.renumbered f).children = heading.children.map f := rfl
  rw [fieldUnder?, fieldUnder?, hlevel, hchildren]
  cases heading.isHeadingAt fieldLevel with
  | false => rfl
  | true =>
      cases hown : heading.children with
      | nil => rfl
      | cons id ids =>
          have hid : id ∈ heading.children := hown ▸ List.mem_cons_self
          obtain ⟨value, hvalue, rfl, _⟩ := h.exists_of_mem_children hheading hid
          simp only [List.map_cons, h.blockNumbered?_renumbered hf hvalue,
            h.numbered.blockNumbered?_of_mem hvalue]
          rfl

theorem fieldsOf_renumbered {ids : List Nat} (hids : ∀ id ∈ ids, ∃ b ∈ blocks, b.id = id) :
    fieldsOf (blocks.map (Block.renumbered f)) (ids.map f) =
      (fieldsOf blocks ids).map (SectionField.renumbered f) := by
  rw [fieldsOf, fieldsOf, List.filterMap_map, List.map_filterMap]
  refine List.filterMap_congr fun id hid => ?_
  obtain ⟨b, hb, rfl⟩ := hids id hid
  rw [Function.comp_apply, h.blockNumbered?_renumbered hf hb, h.numbered.blockNumbered?_of_mem hb,
    Option.bind_some, Option.bind_some, h.fieldUnder?_renumbered hf hb]

theorem request_renumbered {heading : Block} (hheading : heading ∈ blocks) :
    (sectionOf (blocks.map (Block.renumbered f)) (heading.renumbered f)).request =
      (sectionOf blocks heading).request := by
  have hlisted : ∀ id ∈ heading.children, ∃ b ∈ blocks, b.id = id := by
    intro id hid
    obtain ⟨b, hb, hbid, _⟩ := h.exists_of_mem_children hheading hid
    exact ⟨b, hb, hbid⟩
  have hfields := h.fieldsOf_renumbered hf hlisted
  have hchildren : (heading.renumbered f).children = heading.children.map f := rfl
  rw [Section.request, Section.request, sectionOf, sectionOf]
  simp only []
  rw [h.sectionName_renumbered hf hheading, hchildren, hfields, applyFields_renumbered]

/-- Extraction does not see numbers. -/
theorem extract_renumbered : extract (blocks.map (Block.renumbered f)) = extract blocks := by
  have hsections : sections (blocks.map (Block.renumbered f)) =
      (blocks.filter beginsSection).map fun heading =>
        sectionOf (blocks.map (Block.renumbered f)) (heading.renumbered f) := by
    have hbegins : beginsSection ∘ Block.renumbered f = beginsSection := by
      funext b
      simp only [Function.comp_apply, beginsSection, Block.isHeadingAt, Block.hasChildren,
        Block.renumbered, List.isEmpty_map]
    rw [(h.renumbered hf).sections_eq, List.filter_map, hbegins, List.map_map]
    rfl
  rw [extract, extract, hsections, h.sections_eq, List.foldl_map, List.foldl_map]
  refine List.foldl_ext _ _ _ fun done heading hmem => ?_
  have hheading := List.mem_of_mem_filter hmem
  have hname : (sectionOf (blocks.map (Block.renumbered f)) (heading.renumbered f)).name =
      (sectionOf blocks heading).name := h.sectionName_renumbered hf hheading
  simp only [Extraction.add, h.request_renumbered hf hheading, hname]
  rfl

end Hung

end RequestBook
