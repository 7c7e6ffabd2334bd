import RequestBook.Proofs.Applying
import RequestBook.Proofs.Renumbering

/-!
# From lines to a section and back

What is written down part by part is read part by part: parts that each end
where the next one begins become one block each (`Parts.read`). When the first
part is a heading of the second level and the others are headings of the third
with one block behind each of them, the document is one section, and it asks
for what its fields set one after the other (`extract_inARow`).
-/

namespace RequestBook

/-! ## Parts that are one block each -/

theorem extent?_heading {first : Text} (h : Shape.of first = .heading) (rest : List Text) :
    extent? (first :: rest) = some 1 := by
  simp only [extent?, h]

theorem extent?_quote {first : Text} (h : Shape.of first = .quote) {rest : List Text}
    (hrest : ∀ next, rest.head? = some next → isQuoted next = false) :
    extent? (first :: rest) = some 1 := by
  have hnone : rest.takeWhile isQuoted = [] :=
    takeWhile_append_stop (fun _ hmem => (List.not_mem_nil hmem).elim) hrest
  simp only [extent?, h, hnone, List.length_nil]

theorem extent?_fence {opening closing : Text} (h : Shape.of opening = .fence) {body : List Text}
    (hbody : ∀ line ∈ body, isFenceEnd line = false) (hclosing : isFenceEnd closing = true)
    (rest : List Text) :
    extent? (opening :: body ++ closing :: rest) = some (body.length + 2) := by
  have htake : (body ++ closing :: rest).takeWhile (fun line => !isFenceEnd line) = body := by
    refine takeWhile_append_stop (fun line hline => by rw [hbody line hline]; rfl) fun x hx => ?_
    rw [← Option.some.inj hx, hclosing]
    rfl
  have hlength : body.length < (body ++ closing :: rest).length := by
    rw [List.length_append, List.length_cons]
    omega
  rw [List.cons_append]
  simp only [extent?, h, htake, if_pos hlength]

/-- Parts of a document that become one block each when they are read one
after the other: each begins with a line that is not blank, and what follows
it does not belong to it. -/
inductive Parts : List (List Text) → Prop
  | nil : Parts []
  | cons {part : List Text} {later : List (List Text)}
      (first : ∃ line rest, part = line :: rest ∧ Text.allBlank line = false)
      (extent : extent? (part ++ later.flatten) = some part.length) (rest : Parts later) :
      Parts (part :: later)

/-- The blocks of parts, from a position and a number on. -/
def blocksFrom (position id : Nat) : List (List Text) → List Block
  | [] => []
  | part :: later =>
    .ofLines position id part :: blocksFrom (position + part.length) (id + 1) later

theorem Parts.reading {parts : List (List Text)} (h : Parts parts) (before : List Text)
    (id : Nat) :
    ∃ turns, Reading (before ++ parts.flatten) before.length id turns ∧
      turns.filterMap Turn.diagnostic? = [] ∧
      turns.filterMap Turn.block? = blocksFrom before.length id parts := by
  induction h generalizing before id with
  | nil => exact ⟨[], .done (by simp), rfl, rfl⟩
  | @cons part later first extent rest ih =>
      obtain ⟨turns, hreading, hfaults, hblocks⟩ := ih (before ++ part) (id + 1)
      obtain ⟨line, more, hpart, hfull⟩ := first
      rw [List.append_assoc, ← List.flatten_cons, List.length_append] at hreading
      rw [List.length_append] at hblocks
      have hdrop : (before ++ (part :: later).flatten).drop before.length =
          part ++ later.flatten := by
        rw [List.drop_left, List.flatten_cons]
      have hline : (before ++ (part :: later).flatten)[before.length]? = some line := by
        rw [← List.head?_drop, hdrop, hpart]
        rfl
      have hturn := Reading.block hline hfull (hdrop ▸ extent) hreading
      rw [hdrop, List.take_left] at hturn
      refine ⟨_, hturn, ?_, ?_⟩
      · rw [List.filterMap_cons_none (by rfl), hfaults]
      · rw [List.filterMap_cons_some (by rfl), hblocks]
        rfl

/-- Parts are read without a problem, and bare blocks tell them. -/
theorem Parts.read {parts : List (List Text)} (h : Parts parts) :
    (Grammar.standard.read parts.flatten).diagnostics = [] ∧
      (Grammar.standard.read parts.flatten).blocks.map Block.bare = blocksFrom 0 1 parts := by
  obtain ⟨turns, hreading, hfaults, hblocks⟩ := h.reading [] 1
  have hturns := reading_iff.mp hreading
  rw [List.nil_append, List.length_nil] at hturns
  rw [(read_spec _).2, Grammar.read, Grammar.turns, ← hturns]
  exact ⟨hfaults, hblocks⟩

/-! ## A section in a row -/

/-- A section as its blocks come: the heading, and for each field a heading
and a value. -/
def inARow (title : Block) (fields : List (Block × Block)) : List Block :=
  title :: fields.flatMap fun field => [field.1, field.2]

/-- A block with its place among the others. -/
def Block.hungAs (parent : Option Nat) (children : List Nat) (b : Block) : Block :=
  { b with parent, children }

/-- A field, hung below the heading with a number. -/
def hungField (title : Nat) (field : Block × Block) : List Block :=
  [field.1.hungAs (some title) [field.2.id], field.2.hungAs (some field.1.id) []]

/-- A section whose blocks came in a row, hung. -/
def hungInARow (title : Block) (fields : List (Block × Block)) : List Block :=
  title.hungAs none (fields.map (·.1.id)) :: fields.flatMap (hungField title.id)

/-- The heading of a section, the headings of its fields and their values are
what they are called, and none of them has been hung. -/
structure InARow (title : Block) (fields : List (Block × Block)) : Prop where
  numbered : Numbered (inARow title fields)
  fresh : ∀ b ∈ inARow title fields, b.Fresh
  title : title.isHeadingAt sectionLevel = true
  headings : ∀ field ∈ fields, field.1.isHeadingAt fieldLevel = true
  values : ∀ field ∈ fields, field.2.isHeading = false

theorem Block.Fresh.bare_hungAs {b : Block} (hb : b.Fresh) (parent : Option Nat)
    (children : List Nat) : (b.hungAs parent children).bare = b := hb.bare

theorem Block.withChild_hungAs (parent : Option Nat) (children : List Nat) (child : Nat)
    (b : Block) : (b.hungAs parent children).withChild (some b.id) child =
      b.hungAs parent (children ++ [child]) := if_pos rfl

theorem map_withChild_of_ne {blocks : List Block} {id : Nat} (child : Nat)
    (h : ∀ b ∈ blocks, b.id ≠ id) : blocks.map (Block.withChild (some id) child) = blocks := by
  refine (List.map_congr_left fun b hb => ?_).trans (List.map_id blocks)
  exact if_neg fun heq => h b hb (Option.some.inj heq).symm

/-- One more block, hung below what a search backwards finds. -/
theorem Hung.concat {blocks : List Block} (h : Hung blocks) {b : Block} (hb : b.Fresh)
    (hlast : ∀ x ∈ blocks, x.id < b.id) {parent : Option Nat}
    (hparent : scannedParent blocks b = parent) :
    Hung (blocks.map (Block.withChild parent b.id) ++ [b.hungAs parent []]) := by
  subst hparent
  have hsame : b.hungAs (scannedParent blocks b) [] =
      { b with parent := scannedParent blocks b } := by
    rw [Block.hungAs, ← hb.children]
  rw [hsame, ← hang_eq h.numbered hb fun id hid => exists_of_scannedParent hid]
  exact h.add hb hlast

theorem inARow_concat (title : Block) (fields : List (Block × Block)) (field : Block × Block) :
    inARow title (fields ++ [field]) = inARow title fields ++ [field.1, field.2] := by
  rw [inARow, List.flatMap_append, ← List.cons_append]
  rfl

namespace InARow

variable {title : Block} {fields : List (Block × Block)}

theorem of_concat {field : Block × Block} (h : InARow title (fields ++ [field])) :
    InARow title fields where
  numbered := by
    have hnum := h.numbered
    rw [inARow_concat] at hnum
    exact (List.pairwise_append.mp hnum).1
  fresh b hb := h.fresh b (by rw [inARow_concat]; exact List.mem_append_left _ hb)
  title := h.title
  headings f hf := h.headings f (List.mem_append_left _ hf)
  values f hf := h.values f (List.mem_append_left _ hf)

theorem map_bare (h : InARow title fields) :
    (hungInARow title fields).map Block.bare = inARow title fields := by
  rw [hungInARow, inARow, List.map_cons, List.map_flatMap,
    (h.fresh title List.mem_cons_self).bare_hungAs]
  refine congrArg _ (List.flatMap_congr fun field hfield => ?_)
  have hfresh : ∀ b ∈ [field.1, field.2], b.Fresh := fun b hb =>
    h.fresh b (List.mem_cons_of_mem _ (List.mem_flatMap.mpr ⟨field, hfield, hb⟩))
  rw [hungField, List.map_cons, List.map_singleton, (hfresh _ (by simp)).bare_hungAs,
    (hfresh _ (by simp)).bare_hungAs]

theorem id_lt_of_concat {field : Block × Block} (h : InARow title (fields ++ [field])) :
    field.1.id < field.2.id ∧ ∀ x ∈ hungInARow title fields, x.id < field.1.id := by
  have hnum := h.numbered
  rw [inARow_concat] at hnum
  obtain ⟨_, hpair, hlast⟩ := List.pairwise_append.mp hnum
  refine ⟨(List.pairwise_cons.mp hpair).1 _ List.mem_cons_self, fun x hx => ?_⟩
  have hbare : x.bare ∈ inARow title fields := h.of_concat.map_bare ▸ List.mem_map_of_mem hx
  exact hlast x.bare hbare field.1 List.mem_cons_self

theorem mem_hungField {b : Block} (hb : b ∈ fields.flatMap (hungField title.id)) :
    ∃ field ∈ fields, b = field.1.hungAs (some title.id) [field.2.id] ∨
      b = field.2.hungAs (some field.1.id) [] := by
  obtain ⟨field, hfield, hb⟩ := List.mem_flatMap.mp hb
  exact ⟨field, hfield, by simpa [hungField] using hb⟩

/-- No block of a field begins a section. -/
theorem level_of_mem_hungField (h : InARow title fields) {b : Block}
    (hb : b ∈ fields.flatMap (hungField title.id)) : b.isHeadingAt sectionLevel = false := by
  rw [Bool.eq_false_iff]
  intro hat
  obtain ⟨field, hfield, rfl | rfl⟩ := mem_hungField hb
  · have hthree : field.1.isHeadingAt fieldLevel = true := h.headings field hfield
    exact absurd (level_eq hthree hat) (by decide)
  · have hplain : field.2.isHeading = false := h.values field hfield
    have hheading : field.2.isHeading = true := isHeading_of_isHeadingAt hat
    rw [hplain] at hheading
    cases hheading

/-- A search back from the heading of a field passes over the other fields. -/
theorem scannedParent_heading (h : InARow title fields) {heading : Block}
    (hlevel : heading.isHeadingAt fieldLevel = true) :
    scannedParent (hungInARow title fields) heading = some title.id := by
  have hscan : scannedParent (hungInARow title fields) heading =
      (nearest? (hungInARow title fields) (·.isHeadingAt sectionLevel)).map (·.id) :=
    scannedParent_of_level _ hlevel (by decide)
  have hnone : nearest? (fields.flatMap (hungField title.id)) (·.isHeadingAt sectionLevel) =
      none := by
    refine List.find?_eq_none.mpr fun b hb => ?_
    rw [h.level_of_mem_hungField (List.mem_reverse.mp hb)]
    exact Bool.false_ne_true
  have htitle : (title.hungAs none (fields.map (·.1.id))).isHeadingAt sectionLevel = true :=
    h.title
  rw [hscan, hungInARow, ← List.singleton_append, nearest?_append, hnone, Option.none_or,
    nearest?, List.reverse_singleton, List.find?_cons_of_pos htitle]
  rfl

/-- The blocks hang below each other as they are laid out. The induction adds
the last field: its heading goes below the title, and its value below that. -/
theorem hung (h : InARow title fields) : Hung (hungInARow title fields) := by
  induction fields using List.reverseRecOn with
  | nil =>
      exact Hung.empty.concat (h.fresh title List.mem_cons_self) (by simp) (scannedParent_nil title)
  | append_singleton fields field ih =>
      obtain ⟨hlt, hless⟩ := h.id_lt_of_concat
      have hold := ih h.of_concat
      have hfresh : ∀ b ∈ [field.1, field.2], b.Fresh := fun b hb =>
        h.fresh b (by rw [inARow_concat]; exact List.mem_append_right _ hb)
      have hheading : field.1.isHeadingAt fieldLevel = true :=
        h.headings field (List.mem_append_right _ List.mem_cons_self)
      have hvalue : field.2.isHeading = false :=
        h.values field (List.mem_append_right _ List.mem_cons_self)
      -- the heading finds the title and is put among its children
      have hfirst := hold.concat (hfresh field.1 (by simp)) hless
        (h.of_concat.scannedParent_heading hheading)
      have hrest : ∀ b ∈ fields.flatMap (hungField title.id), b.id ≠ title.id := fun b hb =>
        Nat.ne_of_gt ((List.pairwise_cons.mp hold.numbered).1 b hb)
      rw [hungInARow, List.map_cons, Block.withChild_hungAs, map_withChild_of_ne _ hrest] at hfirst
      -- the value finds that heading, which is the last block so far
      have hparent : scannedParent (title.hungAs none (fields.map (·.1.id) ++ [field.1.id]) ::
          fields.flatMap (hungField title.id) ++ [field.1.hungAs (some title.id) []]) field.2 =
            some field.1.id := by
        have hnear : (field.1.hungAs (some title.id) []).isHeading = true :=
          isHeading_of_isHeadingAt hheading
        rw [scannedParent_of_plain _ hvalue, nearest?_concat, if_pos hnear]
        rfl
      have htitle := hless (title.hungAs none (fields.map (·.1.id))) List.mem_cons_self
      have hearlier : ∀ b ∈ title.hungAs none (fields.map (·.1.id) ++ [field.1.id]) ::
          fields.flatMap (hungField title.id), b.id < field.1.id :=
        List.forall_mem_cons.mpr ⟨htitle, fun b hb => hless b (List.mem_cons_of_mem _ hb)⟩
      have hsecond := hfirst.concat (hfresh field.2 (by simp)) (fun b hb => by
        rcases List.mem_append.mp hb with hb | hb
        · exact Nat.lt_trans (hearlier b hb) hlt
        · rw [List.mem_singleton.mp hb]
          exact hlt) hparent
      rw [List.map_append, map_withChild_of_ne _ fun b hb => Nat.ne_of_lt (hearlier b hb),
        List.map_singleton, Block.withChild_hungAs] at hsecond
      rw [hungInARow, List.map_append, List.flatMap_append, List.flatMap_singleton, hungField,
        List.map_singleton]
      rwa [List.cons_append, List.cons_append, List.append_assoc] at hsecond

theorem sections_eq (h : InARow title fields) (hsome : fields ≠ []) :
    sections (hungInARow title fields) =
      [⟨title.hungAs none (fields.map (·.1.id)), Text.trim title.content,
        fields.map fun field => ⟨field.1.hungAs (some title.id) [field.2.id],
          some (field.2.hungAs (some field.1.id) [])⟩⟩] := by
  have hbegins : beginsSection (title.hungAs none (fields.map (·.1.id))) = true := by
    have hlevel : (title.hungAs none (fields.map (·.1.id))).isHeadingAt sectionLevel = true :=
      h.title
    rw [beginsSection, hlevel, Block.hasChildren]
    simpa [Block.hungAs] using hsome
  have hothers : (fields.flatMap (hungField title.id)).filter beginsSection = [] := by
    refine List.filter_eq_nil_iff.mpr fun b hb => ?_
    rw [beginsSection, h.level_of_mem_hungField hb]
    exact Bool.false_ne_true
  have hfields : fieldsOf (hungInARow title fields) (fields.map (·.1.id)) =
      fields.map fun field => ⟨field.1.hungAs (some title.id) [field.2.id],
          some (field.2.hungAs (some field.1.id) [])⟩ := by
    rw [fieldsOf, List.filterMap_map, ← List.filterMap_eq_map]
    refine List.filterMap_congr fun field hfield => ?_
    have hmem : ∀ b ∈ hungField title.id field, b ∈ hungInARow title fields := fun b hb =>
      List.mem_cons_of_mem _ (List.mem_flatMap.mpr ⟨field, hfield, hb⟩)
    have hheading : blockNumbered? (hungInARow title fields) field.1.id =
        some (field.1.hungAs (some title.id) [field.2.id]) :=
      h.hung.numbered.blockNumbered?_of_mem (hmem _ List.mem_cons_self)
    have hvalue : blockNumbered? (hungInARow title fields) field.2.id =
        some (field.2.hungAs (some field.1.id) []) :=
      h.hung.numbered.blockNumbered?_of_mem (hmem _ (List.mem_cons_of_mem _ List.mem_cons_self))
    have hlevel : (field.1.hungAs (some title.id) [field.2.id]).isHeadingAt fieldLevel = true :=
      h.headings field hfield
    rw [Function.comp_apply, Function.comp_apply, hheading, Option.bind_some, fieldUnder?, hlevel,
      ← hvalue]
    rfl
  rw [h.hung.sections_eq, hungInARow, List.filter_cons_of_pos hbegins, hothers,
    List.map_singleton, ← hungInARow, ← hfields]
  rfl

/-- A section in a row asks for what its fields set one after the other. -/
theorem extract_eq (h : InARow title fields) (hsome : fields ≠ []) :
    extract (hungInARow title fields) =
      let asked := applyFields { name := Text.trim title.content }
        (fields.map fun field => ⟨field.1, some field.2⟩)
      ⟨[(Text.trim title.content, asked.1)], asked.2⟩ := by
  have hplace : ∀ r, applyFields r (fields.map fun field =>
      ⟨field.1.hungAs (some title.id) [field.2.id], some (field.2.hungAs (some field.1.id) [])⟩) =
        applyFields r (fields.map fun field => ⟨field.1, some field.2⟩) :=
    applyFields_map_congr fun _ _ => by rfl
  rw [extract, h.sections_eq hsome, List.foldl_cons, List.foldl_nil, add_empty, Section.request,
    hplace]

end InARow

theorem fresh_of_mem_blocksFrom {position id : Nat} {parts : List (List Text)} {b : Block}
    (hb : b ∈ blocksFrom position id parts) : b.Fresh := by
  induction parts generalizing position id with
  | nil => cases hb
  | cons part later ih =>
      rcases List.mem_cons.mp hb with rfl | hb
      · exact fresh_ofLines part
      · exact ih hb

/-! ## A section as it is written -/

/-- The lines of a section, part by part: the line of its heading, and for each
field the line of a heading and the lines of a value. -/
def sectionParts (title : Text) (fields : List (Text × List Text)) : List (List Text) :=
  [title] :: fields.flatMap fun field => [[field.1], field.2]

/-- The lines of a field: a heading of the third level, and a value that ends
where the next heading begins. -/
structure IsField (field : Text × List Text) : Prop where
  heading : kindFrom field.1 = .heading fieldLevel 1
  first : ∃ line rest, field.2 = line :: rest ∧ Text.allBlank line = false ∧
    Shape.of line ≠ .heading
  ends : ∀ rest, (∀ next, rest.head? = some next → Shape.of next = .heading) →
    extent? (field.2 ++ rest) = some field.2.length

/-- The blocks of the fields of a section, from a position and a number on. -/
def fieldBlocks (position id : Nat) : List (Text × List Text) → List (Block × Block)
  | [] => []
  | (heading, value) :: later =>
    (.ofLines position id [heading], .ofLines (position + 1) (id + 1) value) ::
      fieldBlocks (position + 1 + value.length) (id + 2) later

theorem shape_of_kindFrom {line : Text} {level order : Nat}
    (h : kindFrom line = .heading level order) : Shape.of line = .heading := by
  rw [kindFrom] at h
  split at h
  · assumption
  all_goals cases h

theorem level?_kindFrom {line : Text} (h : Shape.of line ≠ .heading) :
    (kindFrom line).level? = none := by
  rw [kindFrom]
  split
  · next hheading => exact absurd hheading h
  all_goals rfl

theorem not_blank_of_shape {line : Text} (h : Shape.of line = .heading) :
    Text.allBlank line = false := by
  rw [Shape.of_eq_heading_iff] at h
  rw [Bool.eq_false_iff, ne_eq, ← Text.trimStart_eq_nil_iff]
  intro hnil
  rw [hnil, List.prefix_nil] at h
  cases h

theorem parts_fields {fields : List (Text × List Text)} (h : ∀ field ∈ fields, IsField field) :
    Parts (fields.flatMap fun field => [[field.1], field.2]) := by
  induction fields with
  | nil => exact .nil
  | cons field fields ih =>
      obtain ⟨hfield, hfields⟩ := List.forall_mem_cons.mp h
      have hshape := shape_of_kindFrom hfield.heading
      obtain ⟨line, rest, hvalue, hfull, _⟩ := hfield.first
      have hnext : ∀ next,
          (fields.flatMap fun field => [[field.1], field.2]).flatten.head? = some next →
            Shape.of next = .heading := by
        intro next hnext
        cases fields with
        | nil => cases hnext
        | cons later fields =>
            cases hnext
            exact shape_of_kindFrom (hfields later List.mem_cons_self).heading
      refine .cons ⟨field.1, [], rfl, not_blank_of_shape hshape⟩ (extent?_heading hshape _) ?_
      exact .cons ⟨line, rest, hvalue, hfull⟩ (hfield.ends _ hnext) (ih hfields)

theorem blocksFrom_fields (position id : Nat) (fields : List (Text × List Text)) :
    blocksFrom position id (fields.flatMap fun field => [[field.1], field.2]) =
      (fieldBlocks position id fields).flatMap fun field => [field.1, field.2] := by
  induction fields generalizing position id with
  | nil => rfl
  | cons field fields ih =>
      rw [fieldBlocks, List.flatMap_cons, List.flatMap_cons, ← ih]
      rfl

theorem mem_fieldBlocks {position id : Nat} {fields : List (Text × List Text)}
    {blocks : Block × Block} (h : blocks ∈ fieldBlocks position id fields) :
    ∃ field ∈ fields, blocks.1.kind = kindFrom field.1 ∧
      blocks.2.kind = kindFrom (field.2.headD []) := by
  induction fields generalizing position id with
  | nil => cases h
  | cons field fields ih =>
      rcases List.mem_cons.mp h with rfl | h
      · exact ⟨field, List.mem_cons_self, rfl, rfl⟩
      · obtain ⟨later, hlater, hkinds⟩ := ih h
        exact ⟨later, List.mem_cons_of_mem _ hlater, hkinds⟩

/-- A document that is one section, with its fields written one after the
other, is read without a problem and asks for what the fields set. -/
theorem extract_sectionParts {title : Text} {fields : List (Text × List Text)}
    (htitle : kindFrom title = .heading sectionLevel 1) (hfields : ∀ field ∈ fields, IsField field)
    (hsome : fields ≠ []) :
    let outline := Grammar.standard.read (sectionParts title fields).flatten
    let name := Text.trim (contentFrom [title])
    let asked := applyFields { name } ((fieldBlocks 1 2 fields).map fun field =>
      ⟨field.1, some field.2⟩)
    outline.diagnostics = [] ∧ extract outline.blocks = ⟨[(name, asked.1)], asked.2⟩ := by
  intro outline name asked
  have hshape := shape_of_kindFrom htitle
  have hparts : Parts (sectionParts title fields) :=
    .cons ⟨title, [], rfl, not_blank_of_shape hshape⟩ (extent?_heading hshape _)
      (parts_fields hfields)
  obtain ⟨hfaults, hbare⟩ := hparts.read
  have hung : Hung outline.blocks := read_hung _
  have hrow : blocksFrom 0 1 (sectionParts title fields) =
      inARow (.ofLines 0 1 [title]) (fieldBlocks 1 2 fields) :=
    congrArg (Block.ofLines 0 1 [title] :: ·) (blocksFrom_fields 1 2 fields)
  have hinrow : InARow (.ofLines 0 1 [title]) (fieldBlocks 1 2 fields) := by
    refine ⟨?_, ?_, ?_, ?_, ?_⟩
    · rw [← hrow, ← hbare, Numbered, List.pairwise_map]
      exact hung.numbered
    · intro b hb
      exact fresh_of_mem_blocksFrom (hrow ▸ hb)
    · rw [Block.isHeadingAt, Block.ofLines, List.headD_cons, htitle]
      rfl
    · intro blocks hblocks
      obtain ⟨field, hfield, hkind, _⟩ := mem_fieldBlocks hblocks
      rw [Block.isHeadingAt, hkind, (hfields field hfield).heading]
      rfl
    · intro blocks hblocks
      obtain ⟨field, hfield, _, hkind⟩ := mem_fieldBlocks hblocks
      obtain ⟨line, rest, hvalue, _, hplain⟩ := (hfields field hfield).first
      rw [Block.isHeading, hkind, hvalue, List.headD_cons, level?_kindFrom hplain]
      rfl
  have hblocks : outline.blocks = hungInARow (.ofLines 0 1 [title]) (fieldBlocks 1 2 fields) :=
    hung.ext hinrow.hung (by rw [hinrow.map_bare, ← hrow]; exact hbare)
  have hany : fieldBlocks 1 2 fields ≠ [] := by
    cases fields with
    | nil => exact absurd rfl hsome
    | cons field fields => exact List.cons_ne_nil _ _
  exact ⟨hfaults, by rw [hblocks, hinrow.extract_eq hany]; rfl⟩

end RequestBook
