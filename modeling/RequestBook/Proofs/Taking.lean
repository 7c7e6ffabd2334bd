import RequestBook.Book
import RequestBook.Proofs.Applying
import RequestBook.Proofs.Extracting

/-!
# Nothing is asked for twice

An extraction that never takes anything would answer the same. Whenever the
heading of a field is looked for in a document, or the value under it, it has
not been taken yet, and it is there: so no field is passed over for want of
its heading, and none is without a value (`readText_asksOnce`).

What is taken at a moment of the run is `takenBefore`. That the run goes
through these moments is `sections_at`, and that holds of any blocks. In a
document the numbers taken up to a moment and those that the next field may
take are parts of one list without repetitions.
-/

namespace RequestBook

/-- The extraction that takes nothing: every field is looked up in the whole
document. -/
def extractKeeping (blocks : List Block) : Extraction :=
  ((blocks.filter beginsSection).map (sectionOf blocks)).foldl Extraction.add {}

/-! ## The moments of a run -/

/-- What is taken when one more section has been read. -/
def takeSection (blocks : List Block) (taken : List Nat) (heading : Block) : List Nat :=
  (fieldsFrom blocks heading.children (heading.id :: taken)).2

/-- What is taken when the sections under some headings have been read. -/
def takenAfter (blocks headings : List Block) : List Nat :=
  headings.foldl (takeSection blocks) []

/-- What is taken when all sections before a heading have been read, and some
of the children of the heading. -/
def takenBefore (blocks earlier : List Block) (heading : Block) (ids : List Nat) : List Nat :=
  (fieldsFrom blocks ids (heading.id :: takenAfter blocks earlier)).2

section Run

variable {blocks earlier later : List Block} {heading : Block} {ids more taken : List Nat}
  {id t : Nat}

/-- The first number is dealt with alone, and the others find what it left. -/
theorem fieldsFrom_cons (id : Nat) (ids : List Nat) :
    fieldsFrom blocks (id :: ids) taken =
      ((fieldsFrom blocks [id] taken).1 ++
          (fieldsFrom blocks ids (fieldsFrom blocks [id] taken).2).1,
        (fieldsFrom blocks ids (fieldsFrom blocks [id] taken).2).2) := by
  simp only [fieldsFrom]
  cases untaken? blocks taken id with
  | none => rfl
  | some heading =>
      simp only []
      split
      · next valueId _ _ _ => cases untaken? blocks (id :: taken) valueId <;> rfl
      · rfl

theorem fieldsFrom_append (ids more : List Nat) :
    fieldsFrom blocks (ids ++ more) taken =
      ((fieldsFrom blocks ids taken).1 ++
          (fieldsFrom blocks more (fieldsFrom blocks ids taken).2).1,
        (fieldsFrom blocks more (fieldsFrom blocks ids taken).2).2) := by
  induction ids generalizing taken with
  | nil => rfl
  | cons id ids ih =>
      rw [List.cons_append, fieldsFrom_cons id (ids ++ more), fieldsFrom_cons id ids, ih,
        List.append_assoc]

theorem sectionsFrom_append (earlier headings : List Block) :
    sectionsFrom blocks (earlier ++ headings) taken =
      sectionsFrom blocks earlier taken ++
        sectionsFrom blocks headings (earlier.foldl (takeSection blocks) taken) := by
  induction earlier generalizing taken with
  | nil => rfl
  | cons heading earlier ih =>
      simp only [List.cons_append, sectionsFrom, List.foldl_cons, ih, takeSection]

/-- The run when it comes to a child of a section heading: what has been found
is kept, and what is taken decides on the rest. -/
theorem sections_at (hsplit : blocks.filter beginsSection = earlier ++ heading :: later)
    (hchildren : heading.children = ids ++ more) :
    sections blocks = sectionsFrom blocks earlier [] ++
      ⟨heading, sectionName blocks heading,
        (fieldsFrom blocks ids (heading.id :: takenAfter blocks earlier)).1 ++
          (fieldsFrom blocks more (takenBefore blocks earlier heading ids)).1⟩ ::
      sectionsFrom blocks later (takenAfter blocks (earlier ++ [heading])) := by
  have hafter : takenAfter blocks (earlier ++ [heading]) =
      takeSection blocks (takenAfter blocks earlier) heading := by
    rw [takenAfter, List.foldl_append]
    rfl
  rw [sections, hsplit, sectionsFrom_append, ← takenAfter, sectionsFrom, hafter, takeSection,
    hchildren, fieldsFrom_append]
  rfl

/-! ## What the moments have taken -/

theorem takenFor_cons (id : Nat) (ids : List Nat) :
    takenFor blocks (id :: ids) =
      (blockNumbered? blocks id).elim [] (takenUnder blocks) ++ takenFor blocks ids :=
  List.flatMap_cons

/-- A number takes at most what the field that it names may take. -/
theorem mem_fieldsFrom_singleton (h : t ∈ (fieldsFrom blocks [id] taken).2) :
    t ∈ taken ∨ t ∈ (blockNumbered? blocks id).elim [] (takenUnder blocks) := by
  cases hfield : (blockNumbered? blocks id).bind (fieldUnder? blocks) with
  | none =>
      rw [fieldsFrom_skip hfield] at h
      exact .inl h
  | some field =>
      obtain ⟨heading, hnum, hunder⟩ := Option.bind_eq_some_iff.mp hfield
      obtain ⟨hlevel, valueId, more, hchildren, -⟩ := fieldUnder?_eq_some hunder
      have hown : takenUnder blocks heading = [id, valueId] := by
        rw [takenUnder, hunder, hchildren, ← blockNumbered?_id hnum]
        rfl
      rw [hnum, Option.elim_some, hown]
      by_cases hid : id ∈ taken
      · rw [fieldsFrom, untaken?, if_pos (by simpa using hid)] at h
        exact .inl h
      · rw [fieldsFrom, untaken?_of_not_mem hid, hnum] at h
        simp only [hlevel, hchildren] at h
        split at h
        · simp only [fieldsFrom, List.mem_cons] at h
          rcases h with rfl | h
          · exact .inr List.mem_cons_self
          · exact .inl h
        · simp only [fieldsFrom, List.mem_cons] at h
          rcases h with rfl | rfl | h
          · exact .inr (List.mem_cons_of_mem _ List.mem_cons_self)
          · exact .inr List.mem_cons_self
          · exact .inl h

theorem mem_fieldsFrom (h : t ∈ (fieldsFrom blocks ids taken).2) :
    t ∈ taken ∨ t ∈ takenFor blocks ids := by
  induction ids generalizing taken with
  | nil => exact .inl h
  | cons id ids ih =>
      rw [fieldsFrom_cons] at h
      rw [takenFor_cons]
      rcases ih h with hfirst | hrest
      · exact (mem_fieldsFrom_singleton hfirst).imp_right (List.mem_append_left _)
      · exact .inr (List.mem_append_right _ hrest)

theorem mem_takenAfter (h : t ∈ takenAfter blocks earlier) :
    t ∈ earlier.flatMap (takenBySection blocks) := by
  induction earlier using List.reverseRecOn with
  | nil => exact h
  | append_singleton earlier heading ih =>
      rw [takenAfter, List.foldl_append, ← takenAfter, List.foldl_cons, List.foldl_nil] at h
      rw [List.flatMap_append, List.flatMap_singleton, List.mem_append, takenBySection,
        List.mem_cons]
      rcases mem_fieldsFrom h with hbefore | hown
      · exact (List.mem_cons.mp hbefore).elim (fun hid => .inr (.inl hid)) fun ht => .inl (ih ht)
      · exact .inr (.inr hown)

theorem mem_takenBefore (h : t ∈ takenBefore blocks earlier heading ids) :
    t ∈ earlier.flatMap (takenBySection blocks) ++ heading.id :: takenFor blocks ids := by
  rw [List.mem_append, List.mem_cons]
  rcases mem_fieldsFrom h with hbefore | hown
  · exact (List.mem_cons.mp hbefore).elim (fun hid => .inr (.inl hid))
      fun ht => .inl (mem_takenAfter ht)
  · exact .inr (.inr hown)

end Run

/-! ## In a document -/

/-- A child of a section heading is asked for while some numbers are taken. -/
def AsksFor (blocks : List Block) (taken : List Nat) (id : Nat) : Prop :=
  ∃ earlier heading later ids more, blocks.filter beginsSection = earlier ++ heading :: later ∧
    heading.children = ids ++ id :: more ∧ taken = takenBefore blocks earlier heading ids

/-- The numbers taken up to a moment and those of the next field are parts of
one list without repetitions. -/
theorem Hung.nodup_of_asksFor {blocks : List Block} (h : Hung blocks) {taken : List Nat} {id : Nat}
    (hasks : AsksFor blocks taken id) {b : Block} (hb : blockNumbered? blocks id = some b) :
    (takenUnder blocks b).Nodup ∧ ∀ t ∈ takenUnder blocks b, t ∉ taken := by
  obtain ⟨earlier, heading, later, ids, more, hsplit, hchildren, rfl⟩ := hasks
  have hlist : (blocks.filter beginsSection).flatMap (takenBySection blocks) =
      (earlier.flatMap (takenBySection blocks) ++ heading.id :: takenFor blocks ids) ++
        (takenUnder blocks b ++
          (takenFor blocks more ++ later.flatMap (takenBySection blocks))) := by
    have hown : takenFor blocks (ids ++ id :: more) =
        takenFor blocks ids ++ (takenUnder blocks b ++ takenFor blocks more) := by
      rw [takenFor, List.flatMap_append, ← takenFor, ← takenFor, takenFor_cons, hb,
        Option.elim_some]
    rw [hsplit, List.flatMap_append, List.flatMap_cons, takenBySection, hchildren, hown]
    simp only [List.append_assoc, List.cons_append]
  have honce := h.takenBySection_nodup
  rw [hlist] at honce
  obtain ⟨-, hleft, hapart⟩ := List.nodup_append.mp honce
  refine ⟨(List.nodup_append.mp hleft).1, fun t ht htaken => ?_⟩
  exact hapart t (mem_takenBefore htaken) t (List.mem_append_left _ ht) rfl

/-- No field and no value of a document is missing when it is asked for. -/
structure AsksOnce (blocks : List Block) : Prop where
  /-- Taking changes nothing, neither a request nor a warning. -/
  same : extract blocks = extractKeeping blocks
  /-- The run comes to each of its moments with `takenBefore` taken: what it has
  found is kept, and what is taken decides on the rest. -/
  run : ∀ earlier heading later ids more, blocks.filter beginsSection = earlier ++ heading :: later →
    heading.children = ids ++ more →
      sections blocks = sectionsFrom blocks earlier [] ++
        ⟨heading, sectionName blocks heading,
          (fieldsFrom blocks ids (heading.id :: takenAfter blocks earlier)).1 ++
            (fieldsFrom blocks more (takenBefore blocks earlier heading ids)).1⟩ ::
        sectionsFrom blocks later (takenAfter blocks (earlier ++ [heading]))
  /-- A field heading is there when it is asked for, and so is its value when
  the heading has been taken. -/
  there : ∀ taken id, AsksFor blocks taken id → ∃ b, blockNumbered? blocks id = some b ∧
    (b.isHeadingAt fieldLevel = true → ∀ valueId more, b.children = valueId :: more →
      untaken? blocks taken id = some b ∧
        ∃ value, untaken? blocks (id :: taken) valueId = some value)
  /-- Every field has its value, and nothing is said of one without. -/
  values : ∀ s ∈ sections blocks, ∀ field ∈ s.fields, field.value.isSome = true
  warnings : ∀ d ∈ (extract blocks).diagnostics, ∀ field, d.problem ≠ .missingValue field

section Document

variable {blocks : List Block} (h : Hung blocks)

include h

theorem Hung.there_of_asksFor {taken : List Nat} {id : Nat} (hasks : AsksFor blocks taken id) :
    ∃ b, blockNumbered? blocks id = some b ∧
      (b.isHeadingAt fieldLevel = true → ∀ valueId more, b.children = valueId :: more →
        untaken? blocks taken id = some b ∧
          ∃ value, untaken? blocks (id :: taken) valueId = some value) := by
  have ⟨_, heading, _, _, _, hsplit, hchildren, _⟩ := hasks
  have hheading : heading ∈ blocks := by
    have hmem : heading ∈ blocks.filter beginsSection :=
      hsplit ▸ List.mem_append_right _ List.mem_cons_self
    exact (List.mem_filter.mp hmem).1
  have hid : id ∈ heading.children := hchildren ▸ List.mem_append_right _ List.mem_cons_self
  obtain ⟨b, hb, rfl, -⟩ := h.exists_of_mem_children hheading hid
  have hnum := h.numbered.blockNumbered?_of_mem hb
  refine ⟨b, hnum, fun hlevel valueId rest hvalues => ?_⟩
  have hown : takenUnder blocks b = [b.id, valueId] := by
    rw [takenUnder, fieldUnder?, hlevel, hvalues]
    rfl
  obtain ⟨honce, hleft⟩ := h.nodup_of_asksFor hasks hnum
  rw [hown] at honce hleft
  have hheadingLeft : b.id ∉ taken := hleft b.id List.mem_cons_self
  have hvalueLeft : valueId ∉ b.id :: taken := by
    intro hmem
    rcases List.mem_cons.mp hmem with heq | htaken
    · exact (List.nodup_cons.mp honce).1 (heq ▸ List.mem_cons_self)
    · exact hleft valueId (List.mem_cons_of_mem _ List.mem_cons_self) htaken
  obtain ⟨value, hvalue, hvalueId, -⟩ :=
    h.exists_of_mem_children hb (hvalues ▸ List.mem_cons_self)
  refine ⟨by rw [untaken?_of_not_mem hheadingLeft, hnum], value, ?_⟩
  rw [untaken?_of_not_mem hvalueLeft, ← hvalueId]
  exact h.numbered.blockNumbered?_of_mem hvalue

theorem Hung.value_of_mem_sections {s : Section} (hs : s ∈ sections blocks) {field : SectionField}
    (hfield : field ∈ s.fields) : field.value.isSome = true := by
  rw [h.sections_eq] at hs
  obtain ⟨heading, -, rfl⟩ := List.mem_map.mp hs
  obtain ⟨id, -, hbound⟩ := List.mem_filterMap.mp hfield
  obtain ⟨b, hnum, hunder⟩ := Option.bind_eq_some_iff.mp hbound
  obtain ⟨-, valueId, more, hvalues, rfl⟩ := fieldUnder?_eq_some hunder
  obtain ⟨hb, -⟩ := (blockNumbered?_eq_some_iff h.numbered).mp hnum
  obtain ⟨value, hvalue, rfl, -⟩ := h.exists_of_mem_children hb (hvalues ▸ List.mem_cons_self)
  rw [h.numbered.blockNumbered?_of_mem hvalue]
  rfl

end Document

/-- Extraction from a document asks for nothing twice. -/
theorem readText_asksOnce (text : Text) : AsksOnce (Grammar.standard.readText text).blocks := by
  have h : Hung (Grammar.standard.readText text).blocks := read_hung _
  exact {
    same := by rw [extract, h.sections_eq, extractKeeping]
    run := fun _ _ _ _ _ hsplit hchildren => sections_at hsplit hchildren
    there := fun _ _ hasks => h.there_of_asksFor hasks
    values := fun _ hs _ hfield => h.value_of_mem_sections hs hfield
    warnings := fun d hd name hmissing => by
      obtain ⟨s, hs, rfl | ⟨field, hfield, hwarning⟩⟩ := mem_extract_diagnostics hd
      · cases hmissing
      · have hvalue := h.value_of_mem_sections hs hfield
        cases hwarning with
        | missing hnone =>
            rw [hnone] at hvalue
            cases hvalue
        | line | json => cases hmissing }

-- Blocks that were not read can name one value twice, and then taking shows.
example :
    let blocks : List Block :=
      [⟨1, .heading 2 0, ['R'], [1], none, [2, 3]⟩,
        ⟨2, .heading 3 0, "url".toList, [2], some 1, [4]⟩,
        ⟨3, .heading 3 0, "url".toList, [3], some 1, [4]⟩,
        ⟨4, .quote, "GET http://a".toList, [4], some 2, []⟩]
    (extract blocks).diagnostics = [⟨.missingValue "url".toList, 3⟩] ∧
      (extractKeeping blocks).diagnostics = [] := by
  decide +kernel

end RequestBook
