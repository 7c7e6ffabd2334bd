import RequestBook.Proofs.Forest

/-!
# No block serves twice

Sections, fields and values are taken from what is left of the document, so
that a block named twice would be there only once. In a document that was read
nothing is ever asked for twice. What a section takes lies below it: its
heading of the second level, field headings of the third that have it as their
parent, and values that have one of these as theirs. A block has one parent
and a heading has its parent one level up, so the block tells which section
may take it.

`sections_eq` is what comes of that: the fields of a section are those that
its children name, looked up in the whole document.
-/

namespace RequestBook

/-! ## Fields without taking -/

/-- The field that begins with a heading: a heading of the third level, with
the first block below it as the value. -/
def fieldUnder? (blocks : List Block) (heading : Block) : Option SectionField :=
  match heading.isHeadingAt fieldLevel, heading.children with
  | true, valueId :: _ => some ⟨heading, blockNumbered? blocks valueId⟩
  | _, _ => none

/-- The fields that some numbers name. -/
def fieldsOf (blocks : List Block) (ids : List Nat) : List SectionField :=
  ids.filterMap fun id => (blockNumbered? blocks id).bind (fieldUnder? blocks)

/-- The section that begins with a heading. -/
def sectionOf (blocks : List Block) (heading : Block) : Section :=
  ⟨heading, sectionName blocks heading, fieldsOf blocks heading.children⟩

/-- The numbers taken for the field that begins with a heading. -/
def takenUnder (blocks : List Block) (heading : Block) : List Nat :=
  match fieldUnder? blocks heading with
  | some _ => heading.id :: heading.children.take 1
  | none => []

/-- The numbers taken for the fields that some numbers name. -/
def takenFor (blocks : List Block) (ids : List Nat) : List Nat :=
  ids.flatMap fun id => (blockNumbered? blocks id).elim [] (takenUnder blocks)

theorem fieldUnder?_eq_some {blocks : List Block} {heading : Block} {field : SectionField}
    (h : fieldUnder? blocks heading = some field) :
    heading.isHeadingAt fieldLevel = true ∧
      ∃ valueId more, heading.children = valueId :: more ∧
        field = ⟨heading, blockNumbered? blocks valueId⟩ := by
  rw [fieldUnder?] at h
  split at h
  · next valueId more hlevel hchildren =>
      cases h
      exact ⟨hlevel, valueId, more, hchildren, rfl⟩
  · cases h

theorem fieldUnder?_eq_none {blocks : List Block} {heading : Block}
    (h : fieldUnder? blocks heading = none) :
    heading.isHeadingAt fieldLevel = false ∨ heading.children = [] := by
  rw [fieldUnder?] at h
  split at h
  · cases h
  · next hno =>
      cases hlevel : heading.isHeadingAt fieldLevel with
      | false => exact .inl rfl
      | true =>
          cases hchildren : heading.children with
          | nil => exact .inr rfl
          | cons valueId more => exact absurd hchildren (hno valueId more hlevel)

theorem blockNumbered?_id {blocks : List Block} {id : Nat} {b : Block}
    (h : blockNumbered? blocks id = some b) : b.id = id := by
  rw [blockNumbered?] at h
  simpa using List.find?_some h

theorem untaken?_of_not_mem {blocks : List Block} {taken : List Nat} {id : Nat}
    (h : id ∉ taken) : untaken? blocks taken id = blockNumbered? blocks id := by
  rw [untaken?, if_neg (by simpa using h)]

/-- A number that names no field is passed over, taken or not. -/
theorem fieldsFrom_skip {blocks : List Block} {id : Nat} {ids taken : List Nat}
    (h : (blockNumbered? blocks id).bind (fieldUnder? blocks) = none) :
    fieldsFrom blocks (id :: ids) taken = fieldsFrom blocks ids taken := by
  rw [fieldsFrom]
  cases hleft : untaken? blocks taken id with
  | none => rfl
  | some heading =>
      have hnum : blockNumbered? blocks id = some heading := by
        rw [untaken?] at hleft
        split at hleft
        · cases hleft
        · exact hleft
      rw [hnum, Option.bind_some] at h
      simp only []
      rcases fieldUnder?_eq_none h with hlevel | hchildren
      · rw [hlevel]
      · rw [hchildren]
        cases heading.isHeadingAt fieldLevel <;> rfl

/-- A number that names a field, with its heading and its value still there. -/
theorem fieldsFrom_field {blocks : List Block} {id : Nat} (ids : List Nat) {taken : List Nat}
    {heading : Block} {field : SectionField} (hnum : blockNumbered? blocks id = some heading)
    (hfield : fieldUnder? blocks heading = some field) (hid : id ∉ taken)
    (hvalue : ∀ v ∈ heading.children.take 1, v ∉ id :: taken) :
    ∃ own, (∀ t ∈ own, t ∈ takenUnder blocks heading) ∧
      fieldsFrom blocks (id :: ids) taken =
        (field :: (fieldsFrom blocks ids (own ++ taken)).1,
          (fieldsFrom blocks ids (own ++ taken)).2) := by
  have hown : takenUnder blocks heading = heading.id :: heading.children.take 1 := by
    rw [takenUnder, hfield]
  obtain ⟨hlevel, valueId, more, hchildren, rfl⟩ := fieldUnder?_eq_some hfield
  rw [hchildren] at hvalue hown
  have huntaken : untaken? blocks (id :: taken) valueId = blockNumbered? blocks valueId :=
    untaken?_of_not_mem (hvalue valueId (by simp))
  rw [hown, blockNumbered?_id hnum, fieldsFrom, untaken?_of_not_mem hid, hnum]
  simp only [hlevel, hchildren, huntaken]
  cases blockNumbered? blocks valueId with
  | none => exact ⟨[id], by simp, rfl⟩
  | some value => exact ⟨[valueId, id], by simp, rfl⟩

/-- When no number is taken twice, the fields are those that the numbers name,
and only these numbers are taken. -/
theorem fieldsFrom_eq {blocks : List Block} {ids taken : List Nat}
    (honce : (takenFor blocks ids).Nodup) (hleft : ∀ t ∈ takenFor blocks ids, t ∉ taken) :
    (fieldsFrom blocks ids taken).1 = fieldsOf blocks ids ∧
      ∀ t ∈ (fieldsFrom blocks ids taken).2, t ∈ taken ∨ t ∈ takenFor blocks ids := by
  induction ids generalizing taken with
  | nil => exact ⟨rfl, fun t ht => .inl ht⟩
  | cons id ids ih =>
      rw [takenFor, List.flatMap_cons, ← takenFor] at honce hleft ⊢
      obtain ⟨hfirst, hrest, hapart⟩ := List.nodup_append.mp honce
      have hleft' : ∀ t ∈ takenFor blocks ids, t ∉ taken :=
        fun t ht => hleft t (List.mem_append_right _ ht)
      rw [fieldsOf, List.filterMap_cons, ← fieldsOf]
      cases hfield : (blockNumbered? blocks id).bind (fieldUnder? blocks) with
      | none =>
          obtain ⟨hfields, htaken⟩ := ih hrest hleft'
          rw [fieldsFrom_skip hfield]
          exact ⟨hfields, fun t ht => (htaken t ht).imp_right (List.mem_append_right _)⟩
      | some field =>
          obtain ⟨heading, hnum, hunder⟩ := Option.bind_eq_some_iff.mp hfield
          have hown : takenUnder blocks heading = id :: heading.children.take 1 := by
            rw [takenUnder, hunder, ← blockNumbered?_id hnum]
          rw [hnum, Option.elim_some] at hfirst hleft hapart ⊢
          rw [hown] at hfirst
          have hid : id ∉ taken :=
            hleft id (List.mem_append_left _ (by rw [hown]; exact List.mem_cons_self))
          have hvalue : ∀ v ∈ heading.children.take 1, v ∉ id :: taken := by
            intro v hv hmem
            rcases List.mem_cons.mp hmem with rfl | hmem
            · exact (List.nodup_cons.mp hfirst).1 hv
            · refine hleft v (List.mem_append_left _ ?_) hmem
              rw [hown]
              exact List.mem_cons_of_mem _ hv
          obtain ⟨own, hsub, hfrom⟩ := fieldsFrom_field ids hnum hunder hid hvalue
          have hstill : ∀ t ∈ takenFor blocks ids, t ∉ own ++ taken := by
            intro t ht hmem
            rcases List.mem_append.mp hmem with hmem | hmem
            · exact hapart t (hsub t hmem) t ht rfl
            · exact hleft' t ht hmem
          obtain ⟨hfields, htaken⟩ := ih hrest hstill
          rw [hfrom]
          refine ⟨by rw [hfields], fun t ht => ?_⟩
          rcases htaken t ht with hmem | hmem
          · rcases List.mem_append.mp hmem with hmem | hmem
            · exact .inr (List.mem_append_left _ (hsub t hmem))
            · exact .inl hmem
          · exact .inr (List.mem_append_right _ hmem)

/-- The numbers taken for the section that begins with a heading. -/
def takenBySection (blocks : List Block) (heading : Block) : List Nat :=
  heading.id :: takenFor blocks heading.children

/-- When no number is taken twice, every section has the fields that its
children name. -/
theorem sectionsFrom_eq {blocks : List Block} {headings : List Block} {taken : List Nat}
    (honce : (headings.flatMap (takenBySection blocks)).Nodup)
    (hleft : ∀ t ∈ headings.flatMap (takenBySection blocks), t ∉ taken) :
    sectionsFrom blocks headings taken = headings.map (sectionOf blocks) := by
  induction headings generalizing taken with
  | nil => rfl
  | cons heading headings ih =>
      rw [List.flatMap_cons] at honce hleft
      obtain ⟨hfirst, hrest, hapart⟩ := List.nodup_append.mp honce
      obtain ⟨hself, honce⟩ := List.nodup_cons.mp hfirst
      have hown : ∀ t ∈ takenFor blocks heading.children, t ∉ heading.id :: taken := by
        intro t ht hmem
        rcases List.mem_cons.mp hmem with rfl | hmem
        · exact hself ht
        · exact hleft t (List.mem_append_left _ (List.mem_cons_of_mem _ ht)) hmem
      have hfields := fieldsFrom_eq honce hown
      have hstill : ∀ t ∈ headings.flatMap (takenBySection blocks),
          t ∉ (fieldsFrom blocks heading.children (heading.id :: taken)).2 := by
        intro t ht hmem
        rcases hfields.2 t hmem with hmem | hmem
        · rcases List.mem_cons.mp hmem with rfl | hmem
          · exact hapart heading.id List.mem_cons_self heading.id ht rfl
          · exact hleft t (List.mem_append_right _ ht) hmem
        · exact hapart t (List.mem_cons_of_mem _ hmem) t ht rfl
      rw [sectionsFrom, List.map_cons, sectionOf, ← hfields.1, ← ih hrest hstill]

/-! ## What a section may take -/

theorem level_of_beginsSection {b : Block} (h : beginsSection b = true) :
    b.isHeadingAt sectionLevel = true := by
  rw [beginsSection, Bool.and_eq_true] at h
  exact h.1

/-- A number that the field under a heading may take. -/
def MayTake (field : Block) (t : Nat) : Prop := t = field.id ∨ t ∈ field.children

theorem mem_takenUnder {blocks : List Block} {heading : Block} {t : Nat}
    (ht : t ∈ takenUnder blocks heading) :
    heading.isHeadingAt fieldLevel = true ∧ MayTake heading t := by
  rw [takenUnder] at ht
  split at ht
  · next field hfield =>
      refine ⟨(fieldUnder?_eq_some hfield).1, ?_⟩
      exact (List.mem_cons.mp ht).imp id List.mem_of_mem_take
  · cases ht

namespace Hung

variable {blocks : List Block} (h : Hung blocks) {f f' p : Block} {t l : Nat}

include h

/-- The parent of a heading is one level up. -/
theorem parent_level (hf : f ∈ blocks) (hlevel : f.isHeadingAt l = true) (hp : p ∈ blocks)
    (hparent : f.parent = some p.id) : 1 < l ∧ p.isHeadingAt (l - 1) = true := by
  obtain ⟨above, habove, hid, _, _, hlevels⟩ := h.parent_lt hf hparent
  rw [← h.numbered.eq_of_id habove hp hid]
  exact hlevels l (by simpa [Block.isHeadingAt] using hlevel)

/-- A heading is no child of another of its level. -/
theorem not_child_of_level (hf : f ∈ blocks) (hlevel : f.isHeadingAt l = true)
    (hp : p ∈ blocks) (hlevel' : p.isHeadingAt l = true) : f.id ∉ p.children := by
  intro hmem
  obtain ⟨hlt, hup⟩ := h.parent_level hf hlevel hp ((h.mem_children_iff hp hf).mp hmem)
  have := level_eq hup hlevel'
  omega

/-- A number may be taken by one field at most. -/
theorem mayTake_unique (hf : f ∈ blocks) (hf' : f' ∈ blocks)
    (hlevel : f.isHeadingAt fieldLevel = true) (hlevel' : f'.isHeadingAt fieldLevel = true)
    (ht : MayTake f t) (ht' : MayTake f' t) : f = f' := by
  rcases ht with rfl | ht <;> rcases ht' with ht' | ht'
  · exact h.numbered.eq_of_id hf hf' ht'
  · exact absurd ht' (h.not_child_of_level hf hlevel hf' hlevel')
  · rw [ht'] at ht
    exact absurd ht (h.not_child_of_level hf' hlevel' hf hlevel)
  · exact (h.parent_unique hf hf' ht ht').symm

theorem mem_takenFor (hp : p ∈ blocks) (ht : t ∈ takenFor blocks p.children) :
    ∃ f ∈ blocks, f.isHeadingAt fieldLevel = true ∧ f.parent = some p.id ∧ MayTake f t := by
  obtain ⟨id, hid, ht⟩ := List.mem_flatMap.mp ht
  obtain ⟨f, hf, rfl, hparent⟩ := h.exists_of_mem_children hp hid
  rw [h.numbered.blockNumbered?_of_mem hf, Option.elim_some] at ht
  obtain ⟨hlevel, hmay⟩ := mem_takenUnder ht
  exact ⟨f, hf, hlevel, hparent, hmay⟩

theorem children_nodup (hp : p ∈ blocks) : p.children.Nodup :=
  (h.children_increase hp).imp Nat.ne_of_lt

theorem not_own_child (hp : p ∈ blocks) : p.id ∉ p.children := by
  intro hmem
  obtain ⟨above, habove, hid, hlt, _⟩ := h.parent_lt hp ((h.mem_children_iff hp hp).mp hmem)
  omega

theorem takenFor_nodup (hp : p ∈ blocks) : (takenFor blocks p.children).Nodup := by
  rw [takenFor, List.nodup_flatMap]
  constructor
  · intro id hid
    obtain ⟨f, hf, rfl, _⟩ := h.exists_of_mem_children hp hid
    rw [h.numbered.blockNumbered?_of_mem hf, Option.elim_some, takenUnder]
    split
    · refine List.nodup_cons.mpr ⟨fun hmem => ?_, ?_⟩
      · exact h.not_own_child hf (List.mem_of_mem_take hmem)
      · exact (h.children_nodup hf).sublist (List.take_sublist _ _)
    · exact List.nodup_nil
  · refine (h.children_nodup hp).pairwise_of_forall_ne fun id hid id' hid' hne t ht ht' => ?_
    obtain ⟨f, hf, rfl, _⟩ := h.exists_of_mem_children hp hid
    obtain ⟨f', hf', rfl, _⟩ := h.exists_of_mem_children hp hid'
    simp only [h.numbered.blockNumbered?_of_mem hf, Option.elim_some] at ht
    simp only [h.numbered.blockNumbered?_of_mem hf', Option.elim_some] at ht'
    obtain ⟨hlevel, hmay⟩ := mem_takenUnder ht
    obtain ⟨hlevel', hmay'⟩ := mem_takenUnder ht'
    exact hne (by rw [h.mayTake_unique hf hf' hlevel hlevel' hmay hmay'])

/-- A heading of the second level is taken by no field. -/
theorem section_not_takenFor (hf : f ∈ blocks) (hlevel : f.isHeadingAt sectionLevel = true)
    (hp : p ∈ blocks) : f.id ∉ takenFor blocks p.children := by
  intro hmem
  obtain ⟨g, hg, hglevel, _, hmay⟩ := h.mem_takenFor hp hmem
  rcases hmay with hid | hchild
  · rw [h.numbered.eq_of_id hf hg hid] at hlevel
    exact absurd (level_eq hlevel hglevel) (by decide)
  · obtain ⟨_, hup⟩ := h.parent_level hf hlevel hg ((h.mem_children_iff hg hf).mp hchild)
    exact absurd (level_eq hup hglevel) (by decide)

theorem takenBySection_nodup :
    ((blocks.filter beginsSection).flatMap (takenBySection blocks)).Nodup := by
  have hbegins : ∀ b ∈ blocks.filter beginsSection,
      b ∈ blocks ∧ b.isHeadingAt sectionLevel = true := by
    intro b hb
    obtain ⟨hmem, hsection⟩ := List.mem_filter.mp hb
    exact ⟨hmem, level_of_beginsSection hsection⟩
  have hdistinct : (blocks.filter beginsSection).Nodup :=
    (h.numbered.imp fun hlt heq => by rw [heq] at hlt; omega).filter _
  rw [List.nodup_flatMap]
  constructor
  · intro b hb
    obtain ⟨hmem, hlevel⟩ := hbegins b hb
    exact List.nodup_cons.mpr
      ⟨h.section_not_takenFor hmem hlevel hmem, h.takenFor_nodup hmem⟩
  · refine hdistinct.pairwise_of_forall_ne fun b hb c hc hne t ht ht' => hne ?_
    obtain ⟨hbmem, hblevel⟩ := hbegins b hb
    obtain ⟨hcmem, hclevel⟩ := hbegins c hc
    rcases List.mem_cons.mp ht with rfl | ht <;> rcases List.mem_cons.mp ht' with hid | ht'
    · exact h.numbered.eq_of_id hbmem hcmem hid
    · exact absurd ht' (h.section_not_takenFor hbmem hblevel hcmem)
    · rw [hid] at ht
      exact absurd ht (h.section_not_takenFor hcmem hclevel hbmem)
    · obtain ⟨f, hf, hlevel, hparent, hmay⟩ := h.mem_takenFor hbmem ht
      obtain ⟨f', hf', hlevel', hparent', hmay'⟩ := h.mem_takenFor hcmem ht'
      rw [h.mayTake_unique hf hf' hlevel hlevel' hmay hmay', hparent',
        Option.some.injEq] at hparent
      exact (h.numbered.eq_of_id hcmem hbmem hparent).symm

/-- The sections of blocks that have been hung: taking changes nothing. -/
theorem sections_eq : sections blocks = (blocks.filter beginsSection).map (sectionOf blocks) :=
  sectionsFrom_eq h.takenBySection_nodup fun _ _ => List.not_mem_nil

end Hung

end RequestBook
