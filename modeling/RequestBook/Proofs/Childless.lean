import RequestBook.Proofs.Overriding
import RequestBook.Proofs.Pointing

/-!
# A field heading with nothing below it

The heading of a field that has no block below it is no field, whatever words
it holds. It is passed over before its value is asked for, so the warning about
a field without a value is not given for it either
(`unvalued_url_unreported`). No diagnostic ever names the line of a field
heading, and the document asks for the same requests, with the same warnings,
when the heading is struck from its section (`childless_passedOver`).

What such a heading can do is to begin a section: a heading of the second level
with no other block below it asks for an empty request.
-/

namespace RequestBook

/-- A field heading adds nothing to the section that it stands under. -/
structure PassedOver (text : Text) (s : Section) (f : Block) : Prop where
  unnamed : ∀ d ∈ (Book.compile text).diagnostics, d.line ∉ f.lines
  unread : ∀ t ∈ sections (Grammar.standard.readText text).blocks, ∀ field ∈ t.fields,
    field.heading ≠ f
  idle : s.heading.children ≠ [f.id] →
    extract (withoutChild (Grammar.standard.readText text).blocks s.heading.id f.id) =
      extract (Grammar.standard.readText text).blocks
  alone : s.heading.children = [f.id] → s.request = ({ name := s.name }, [])

/-! ## The heading's line -/

theorem line_not_mem_of_field {lines : List Text} {f : Block} {d : Diagnostic}
    (hf : f ∈ (Grammar.standard.read lines).blocks) (hlevel : f.isHeadingAt fieldLevel = true)
    (hd : d ∈ (Book.ofOutline (Grammar.standard.read lines)).diagnostics) :
    d.line ∉ f.lines := by
  rcases List.mem_append.mp hd with hfault | hfound
  · exact read_apart hf hfault
  · intro hmem
    obtain ⟨b, hb, hconcerns, hhead, -⟩ := namesBlock_of_mem_extract hfound
    have hfirst : d.line ∈ b.lines := List.mem_of_head? hhead
    obtain rfl := eq_of_shared_line (read_blocks_increase lines) hb hf hfirst hmem
    rw [hconcerns.not_field] at hlevel
    cases hlevel

/-! ## Striking what is no field -/

section Striking

variable {blocks : List Block} {child : Nat}

theorem fieldUnder?_of_childless {f : Block} (h : f.children = []) :
    fieldUnder? blocks f = none := by
  rw [fieldUnder?, h]
  cases f.isHeadingAt fieldLevel <;> rfl

theorem fieldsOf_filter_of_none
    (hnone : (blockNumbered? blocks child).bind (fieldUnder? blocks) = none) (ids : List Nat) :
    fieldsOf blocks (ids.filter (· ≠ child)) = fieldsOf blocks ids := by
  rw [fieldsOf_filter, List.filter_eq_self]
  intro field hfield
  obtain ⟨id, -, hnamed⟩ := List.mem_filterMap.mp hfield
  refine decide_eq_true fun heq => ?_
  rw [heading_id_of_named hnamed] at heq
  rw [heq, hnone] at hnamed
  cases hnamed

/-- A number that names no field may be struck from a section, as long as the
section keeps another one. -/
theorem Hung.extract_without (h : Hung blocks) {owner : Block} (howner : owner ∈ blocks)
    (hlevel : owner.isHeadingAt sectionLevel = true)
    (hnone : (blockNumbered? blocks child).bind (fieldUnder? blocks) = none)
    (hmore : owner.children.filter (· ≠ child) ≠ []) :
    extract (withoutChild blocks owner.id child) = extract blocks := by
  rw [extract, extract, h.sections_without howner hlevel child hmore, h.sections_eq,
    List.foldl_map, List.foldl_map]
  refine List.foldl_ext _ _ _ fun done b _ => ?_
  have hname : (sectionOf (withoutChild blocks owner.id child)
      (b.without owner.id child)).name = (sectionOf blocks b).name := sectionName_without b
  have hkept : fieldsOf blocks (b.without owner.id child).children =
      fieldsOf blocks b.children := by
    by_cases hid : b.id = owner.id
    · rw [Block.without_children hid, fieldsOf_filter_of_none hnone]
    · rw [Block.without_of_ne hid]
  have hrequest : (sectionOf (withoutChild blocks owner.id child)
      (b.without owner.id child)).request = (sectionOf blocks b).request := by
    rw [h.request_without howner hlevel, hkept]
    rfl
  simp only [Extraction.add, hrequest, hname]
  rfl

end Striking

/-! ## Documents -/

/-- A field heading with no block below it changes nothing in its document, and
nothing is said about it. -/
theorem childless_passedOver (text : Text) {s : Section} {f : Block}
    (hs : s ∈ sections (Grammar.standard.readText text).blocks)
    (hf : f ∈ (Grammar.standard.readText text).blocks) (hunder : f.id ∈ s.heading.children)
    (hlevel : f.isHeadingAt fieldLevel = true) (hchildless : f.children = []) :
    PassedOver text s f := by
  have h : Hung (Grammar.standard.readText text).blocks := read_hung _
  obtain ⟨hheading, hsection⟩ := h.heading_of_mem_sections hs
  have hnone : (blockNumbered? (Grammar.standard.readText text).blocks f.id).bind
      (fieldUnder? (Grammar.standard.readText text).blocks) = none := by
    rw [h.numbered.blockNumbered?_of_mem hf]
    exact fieldUnder?_of_childless hchildless
  refine ⟨fun d hd => line_not_mem_of_field hf hlevel hd, ?_, fun hmore => ?_, fun honly => ?_⟩
  · intro t ht field hfield heq
    rw [h.sections_eq] at ht
    obtain ⟨heading, -, rfl⟩ := List.mem_map.mp ht
    obtain ⟨id, -, hnamed⟩ := List.mem_filterMap.mp hfield
    obtain ⟨b, -, hfound⟩ := Option.bind_eq_some_iff.mp hnamed
    obtain ⟨-, valueId, more, hchildren, rfl⟩ := fieldUnder?_eq_some hfound
    rw [show b = f from heq, hchildless] at hchildren
    cases hchildren
  · refine h.extract_without hheading hsection hnone fun hnil => hmore ?_
    -- all children are this one, and none is named twice
    have hall : ∀ id ∈ s.heading.children, id = f.id := by simpa using hnil
    have hrepeat := List.eq_replicate_of_mem hall
    have honce := h.children_nodup hheading
    rw [hrepeat, List.nodup_replicate] at honce
    have hlength : s.heading.children.length = 1 :=
      Nat.le_antisymm honce (List.length_pos_of_mem hunder)
    rw [hrepeat, hlength, List.replicate_one]
  · have hfields : s.fields = fieldsOf (Grammar.standard.readText text).blocks [f.id] := by
      rw [h.sections_eq] at hs
      obtain ⟨heading, -, rfl⟩ := List.mem_map.mp hs
      exact congrArg _ honly
    have hnothing : fieldsOf (Grammar.standard.readText text).blocks [f.id] = [] := by
      rw [fieldsOf, List.filterMap_eq_nil_iff]
      intro id hid
      rw [List.mem_singleton.mp hid]
      exact hnone
    rw [Section.request, hfields, hnothing]
    rfl

/-- The url has no value, because the fence below it is the value of the body. -/
theorem childless_passedOver_before_body :
    let text : Text := "# A\n## R\n### url\n### body\n\x60\x60\x60json\n{}\n\x60\x60\x60\n".toList
    let body : SectionField := ⟨⟨4, .heading 3 1, "body".toList, [4], some 2, [5]⟩,
      some ⟨5, .fence "json".toList, "{}".toList, [5, 6, 7], some 4, []⟩⟩
    let s : Section := ⟨⟨2, .heading 2 1, "R".toList, [2], some 1, [3, 4]⟩, "A@R".toList, [body]⟩
    let f : Block := ⟨3, .heading 3 1, "url".toList, [3], some 2, []⟩
    s ∈ sections (Grammar.standard.readText text).blocks ∧
      f ∈ (Grammar.standard.readText text).blocks ∧ f.id ∈ s.heading.children ∧
      f.isHeadingAt fieldLevel = true ∧ f.children = [] ∧ PassedOver text s f := by
  intro text body s f
  have hs : s ∈ sections (Grammar.standard.readText text).blocks := by decide +kernel
  have hf : f ∈ (Grammar.standard.readText text).blocks := by decide +kernel
  have hunder : f.id ∈ s.heading.children := by decide
  exact ⟨hs, hf, hunder, rfl, rfl, childless_passedOver text hs hf hunder rfl rfl⟩

/-- A section whose url has no value asks for a request without a url, and its
document has no warning. -/
theorem unvalued_url_unreported :
    let book := Book.compile "## R\n### url".toList
    ∃ s ∈ sections book.outline.blocks, ∃ f ∈ book.outline.blocks,
      f.id ∈ s.heading.children ∧ f.isHeadingAt fieldLevel = true ∧
      Text.holds "url".toList f.content = true ∧ f.children = [] ∧
      book.requests.map (·.2.url) = [[]] ∧
      ¬ ∃ d ∈ book.diagnostics, d.isWarning = true ∧ d.line ∈ f.lines := by
  decide +kernel

end RequestBook
