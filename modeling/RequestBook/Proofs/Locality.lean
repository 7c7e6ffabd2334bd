import RequestBook.Proofs.Excerpt

/-!
# A section can be read alone

What a section asks for is decided by its own lines: those from its heading up
to the next heading of the second level. Reading these lines alone makes the
same request, with the same warnings further up, and only the name may differ,
because the heading above the section is not among them (`read_section_alone`).

Four things could have come between. A fence opened before the section is
closed before it or costs one line. An old heading gives a parent to blocks of
the section, but a field never hangs below one, since the heading of the
section is nearer. A later heading of the fourth level hangs below a field of
the section, where it is no value. And taking blocks takes none twice, so the
fields are looked up in the whole document as if nothing had been taken.
-/

namespace RequestBook

/-! ## Fields of an excerpt -/

namespace Excerpt

variable {before own after part : List Block} {down up : Nat} {x y : Block}
  (h : Excerpt before own after part down up)

include h

theorem namedAlike (hy : y ∈ part) : NamedAlike (before ++ own ++ after) part down up y.id := by
  obtain ⟨i, x, hx, _, hrep⟩ := h.exists_copy hy
  have hcopy := h.whole.numbered.blockNumbered?_of_mem (mem_whole (List.mem_of_getElem? hx))
  rw [hrep.id] at hcopy
  exact ⟨x, y, hcopy, h.alone.numbered.blockNumbered?_of_mem hy, hrep⟩

section Behind

variable (hafter : ∀ next, after.head? = some next → next.isHeadingAt sectionLevel = true)

include hafter

/-- A section loses no child to the blocks behind it and gets none of them. -/
theorem section_children (hx : x ∈ own) (hy : y ∈ part) (hrep : x.Repeats down up y)
    (hlevel : x.isHeadingAt sectionLevel = true) : x.children = y.children.map (· + up) := by
  have hnone : below after x.id = [] := by
    refine below_eq_nil fun b hb hparent => ?_
    have hno := (h.hangs_back hafter hb hx hparent).2
    rw [hlevel] at hno
    cases hno
  rw [h.children_eq hx hy hrep, hnone, List.append_nil]

theorem headingsBehind (hy : y ∈ part) :
    HeadingsBehind (before ++ own ++ after) part down up y.id := by
  intro copy b hcopy hb _
  obtain ⟨i, x, hx, _, hrep⟩ := h.exists_copy hy
  have hx := List.mem_of_getElem? hx
  obtain ⟨hbmem, hbid⟩ := (blockNumbered?_eq_some_iff h.alone.numbered).mp hb
  obtain ⟨hcmem, hcid⟩ := (blockNumbered?_eq_some_iff h.whole.numbered).mp hcopy
  have hby := h.alone.numbered.eq_of_id hbmem hy hbid
  have hcx := h.whole.numbered.eq_of_id hcmem (mem_whole hx) (hcid.trans hrep.id.symm)
  subst hby hcx
  refine ⟨below after copy.id, h.children_eq hx hy hrep, fun v hv => ?_, fun v hv => ?_⟩
  · obtain ⟨n, hn, rfl, _⟩ := h.alone.exists_of_mem_children hy hv
    exact h.namedAlike hn
  · obtain ⟨n, hn, rfl, hparent⟩ := mem_below.mp hv
    exact ⟨n, h.whole.numbered.blockNumbered?_of_mem (List.mem_append_right _ hn),
      (h.hangs_back hafter hn hx hparent).1⟩

/-- The fields of a section set the same in the document as in the part. -/
theorem applyFields_eq (r : Request) (hx : x ∈ own) (hy : y ∈ part)
    (hrep : x.Repeats down up y) (hlevel : x.isHeadingAt sectionLevel = true) :
    applyFields r (fieldsOf (before ++ own ++ after) x.children) =
      warningsMoved down (applyFields r (fieldsOf part y.children)) := by
  rw [h.section_children hafter hx hy hrep hlevel]
  refine applyFields_repeats r (fun id hid => ?_) fun id hid => ?_
  · obtain ⟨n, hn, rfl, _⟩ := h.alone.exists_of_mem_children hy hid
    exact h.namedAlike hn
  · obtain ⟨n, hn, rfl, _⟩ := h.alone.exists_of_mem_children hy hid
    exact h.headingsBehind hafter hn

end Behind

end Excerpt

/-! ## Sections -/

/-- The heading above a section is the nearest of the first level before it. -/
theorem sectionName_eq {before after : List Block} {heading : Block}
    (h : Hung (before ++ heading :: after)) (hlevel : heading.isHeadingAt sectionLevel = true) :
    sectionName (before ++ heading :: after) heading =
      (nearest? before (·.isHeadingAt 1)).elim (Text.trim heading.content)
        fun above => Text.trim above.content ++ ['@'] ++ Text.trim heading.content := by
  have hat : (before ++ heading :: after)[before.length]? = some heading := by simp
  have hparent := h.parents _ _ hat
  rw [List.take_left, scannedParent_of_level before hlevel Nat.one_pos] at hparent
  rw [sectionName, hparent]
  cases habove : nearest? before (·.isHeadingAt 1) with
  | none => rfl
  | some above =>
      have hfound := h.numbered.blockNumbered?_of_mem
        (List.mem_append_left _ (nearest?_some habove).1)
      simp only [Option.map_some, Option.bind_some, hfound, Option.elim_some]

theorem exists_sections_split {before after : List Block} {heading : Block}
    (h : Hung (before ++ heading :: after)) (hbegins : beginsSection heading = true) :
    ∃ earlier later, sections (before ++ heading :: after) =
      earlier ++ sectionOf (before ++ heading :: after) heading :: later := by
  have hsections := h.sections_eq
  rw [List.filter_append, List.filter_cons_of_pos hbegins, List.map_append,
    List.map_cons] at hsections
  exact ⟨_, _, hsections⟩

/-- Where only the first block begins a section there is one request. No
heading is above it, so its name is that of the section. -/
theorem extract_of_first {first : Block} {others : List Block} (h : Hung (first :: others))
    (hbegins : beginsSection first = true)
    (hothers : ∀ b ∈ others, b.isHeadingAt sectionLevel = false) :
    extract (first :: others) =
      let result := applyFields { name := Text.trim first.content }
        (fieldsOf (first :: others) first.children)
      ⟨[(Text.trim first.content, result.1)], result.2⟩ := by
  have hnone : others.filter beginsSection = [] := by
    rw [List.filter_eq_nil_iff]
    intro b hb hb'
    rw [beginsSection, hothers b hb] at hb'
    cases hb'
  have hparent := h.parents 0 first rfl
  rw [List.take_zero, scannedParent_nil] at hparent
  have hname : sectionName (first :: others) first = Text.trim first.content := by
    rw [sectionName, hparent]
    rfl
  rw [extract, h.sections_eq, List.filter_cons_of_pos hbegins, hnone, List.map_singleton,
    List.foldl_cons, List.foldl_nil, add_empty, Section.request, sectionOf, hname]

/-! ## Alone -/

/-- The lines of a section: from its heading up to the next heading of the
second level, or to the end. -/
def sectionLines (lines : List Text) (heading : Block) (after : List Block) : List Text :=
  linesFrom lines heading (after.dropWhile fun b => !b.isHeadingAt sectionLevel)

/-- A heading of a document asks for what the lines of its section ask for
alone: `alone` is what is extracted from these. -/
structure AsksAlone (blocks before : List Block) (heading : Block) (alone : Extraction)
    (earlier : List Section) (s : Section) (later : List Section) (own : Request) : Prop where
  place : sections blocks = earlier ++ s :: later
  begins : s.heading = heading
  /-- One request is made of the lines alone, under the name of the heading. -/
  one : alone.requests = [(own.name, own)]
  ownName : own.name = Text.trim heading.content
  /-- In the document the nearest heading of the first level comes before the
  name. -/
  name : s.name = (nearest? before (·.isHeadingAt 1)).elim own.name
    fun above => Text.trim above.content ++ ['@'] ++ own.name
  /-- Nothing else differs. -/
  request : s.request.1 = { own with name := s.name }
  warnings : s.request.2 = alone.diagnostics.map (Diagnostic.moved (heading.firstLine - 1))
  kept : s.request.2 <:+: (extract blocks).diagnostics
  /-- Of several sections of one name the last is extracted. -/
  last : (∀ t ∈ later, t.name ≠ s.name) →
    (extract blocks).requests.lookup s.name = some { own with name := s.name }

section Alone

variable {before inside after part : List Block} {heading first : Block} {down up : Nat}
  (h : Excerpt before (heading :: inside) after part down up)

include h

theorem Excerpt.exists_first :
    ∃ first others, part = first :: others ∧ heading.Repeats down up first := by
  have hlen := h.length_eq
  cases part with
  | nil => cases hlen
  | cons first others => exact ⟨first, others, rfl, h.repeats (i := 0) rfl rfl⟩

theorem Excerpt.others_level {others : List Block} (hpart : part = first :: others)
    (hinside : ∀ b ∈ inside, b.isHeadingAt sectionLevel = false) :
    ∀ b ∈ others, b.isHeadingAt sectionLevel = false := by
  intro b hb
  obtain ⟨i, hi⟩ := List.mem_iff_getElem?.mp hb
  have hlen := h.length_eq
  have hlt : i < inside.length := by
    have := (List.getElem?_eq_some_iff.mp hi).1
    rw [hpart, List.length_cons, List.length_cons] at hlen
    omega
  have hx : (heading :: inside)[i + 1]? = some inside[i] := List.getElem?_eq_getElem hlt
  have hy : part[i + 1]? = some b := by rw [hpart, List.getElem?_cons_succ, hi]
  rw [← isHeadingAt_repeats (h.repeats hx hy)]
  exact hinside _ (List.getElem_mem hlt)

/-- The section that begins an excerpt asks for what the part asks for alone. -/
theorem Excerpt.asksAlone (hbegins : beginsSection heading = true)
    (hinside : ∀ b ∈ inside, b.isHeadingAt sectionLevel = false)
    (hafter : ∀ next, after.head? = some next → next.isHeadingAt sectionLevel = true)
    (hdown : down = heading.firstLine - 1) :
    ∃ earlier s later own,
      AsksAlone (before ++ heading :: inside ++ after) before heading (extract part)
        earlier s later own := by
  obtain ⟨first, others, rfl, hrep⟩ := h.exists_first
  have hothers := h.others_level rfl hinside
  have hlevel := level_of_beginsSection hbegins
  have hchildren := h.section_children hafter List.mem_cons_self List.mem_cons_self hrep hlevel
  have hfirst : beginsSection first = true := by
    rw [beginsSection, isHeadingAt_repeats hrep, Block.hasChildren, hchildren,
      List.isEmpty_map] at hbegins
    exact hbegins
  have hextract := extract_of_first h.alone hfirst hothers
  have hfields := h.applyFields_eq hafter { name := Text.trim first.content }
    List.mem_cons_self List.mem_cons_self hrep hlevel
  have hown : (applyFields { name := Text.trim first.content }
      (fieldsOf (first :: others) first.children)).1.name = Text.trim heading.content := by
    rw [applyFields_name, hrep.content]
  generalize applyFields { name := Text.trim first.content }
    (fieldsOf (first :: others) first.children) = result at hextract hfields hown
  have hassoc : before ++ heading :: inside ++ after = before ++ heading :: (inside ++ after) := by
    rw [List.append_assoc, List.cons_append]
  have hung : Hung (before ++ heading :: (inside ++ after)) := hassoc ▸ h.whole
  rw [hassoc] at hfields ⊢
  obtain ⟨earlier, later, hsections⟩ := exists_sections_split hung hbegins
  obtain ⟨hkept, hlast⟩ := extract_of_sections_eq hsections
  have hname := sectionName_eq hung hlevel
  rw [← hown] at hname
  -- The name is not read by the fields, so the two requests differ in it only.
  have hrequest := applyFields_named { name := Text.trim first.content }
    (fieldsOf (before ++ heading :: (inside ++ after)) heading.children)
    (sectionName (before ++ heading :: (inside ++ after)) heading)
  rw [hfields] at hrequest
  refine ⟨earlier, sectionOf (before ++ heading :: (inside ++ after)) heading, later,
    result.1, {
      place := hsections
      begins := rfl
      one := by rw [hextract, hown, hrep.content]
      ownName := hown
      name := hname
      request := congrArg Prod.fst hrequest
      warnings := by rw [hextract, ← hdown]; exact congrArg Prod.snd hrequest
      kept := hkept
      last := fun hlater => ?_ }⟩
  rw [hlast hlater]
  exact congrArg (fun result => some result.1) hrequest

end Alone

/-- Every section of a document asks for what its lines ask for alone. -/
theorem read_section_alone {lines : List Text} {before after : List Block} {heading : Block}
    (hsplit : (Grammar.standard.read lines).blocks = before ++ heading :: after)
    (hbegins : beginsSection heading = true) :
    ∃ earlier s later own,
      AsksAlone (Grammar.standard.read lines).blocks before heading
        (extract (Grammar.standard.read (sectionLines lines heading after)).blocks)
        earlier s later own := by
  have hparts := List.takeWhile_append_dropWhile (p := fun b => !b.isHeadingAt sectionLevel)
    (l := after)
  rw [← hparts, ← List.cons_append, ← List.append_assoc] at hsplit
  have hexcerpt := read_excerpt hsplit
  rw [hsplit]
  refine hexcerpt.asksAlone hbegins (fun b hb => ?_) (fun next hnext => ?_) rfl
  · simpa using List.mem_takeWhile_imp hb
  · have hstop := List.head?_dropWhile_not (fun b => !b.isHeadingAt sectionLevel) after
    rw [hnext] at hstop
    simpa using hstop

/-- A fence that is never closed stands before the section, and behind it a
heading that hangs back into its last field. -/
theorem section_alone_between_fence_and_late_heading :
    let lines : List Text := ["# A", "\x60\x60\x60json", "## B", "### url", "> oops",
      "### last", "## C", "#### late"].map String.toList
    let before : List Block := [⟨1, .heading 1 1, "A".toList, [1], none, [3, 7]⟩]
    let heading : Block := ⟨3, .heading 2 1, "B".toList, [3], some 1, [4, 6]⟩
    let after : List Block :=
      [⟨4, .heading 3 1, "url".toList, [4], some 3, [5]⟩,
        ⟨5, .quote, "oops".toList, [5], some 4, []⟩,
        ⟨6, .heading 3 1, "last".toList, [6], some 3, [8]⟩,
        ⟨7, .heading 2 1, "C".toList, [7], some 1, []⟩,
        ⟨8, .heading 4 1, "late".toList, [8], some 6, []⟩]
    (Grammar.standard.read lines).blocks = before ++ heading :: after ∧
      beginsSection heading = true ∧
      ∃ earlier s later own,
        AsksAlone (Grammar.standard.read lines).blocks before heading
          (extract (Grammar.standard.read (sectionLines lines heading after)).blocks)
          earlier s later own := by
  intro lines before heading after
  have hsplit : (Grammar.standard.read lines).blocks = before ++ heading :: after := by
    decide +kernel
  have hbegins : beginsSection heading = true := by decide
  exact ⟨hsplit, hbegins, read_section_alone hsplit hbegins⟩

end RequestBook
