import RequestBook.Extraction
import RequestBook.Proofs.Moving
import RequestBook.Proofs.Sections

/-!
# What a request is made of

A field reads the kind and the text of its heading and of its value, and of
their lines only the first, to name it in a warning. So a field made from
blocks that say the same further down sets the same, with its warnings further
down (`applyField_repeats`). A heading below a field heading sets nothing, and
that is all that later sections can put there (`applyUnder_repeats`).

The name of a request is read by nothing: it goes through the fields untouched
(`applyFields_named`). It matters only when requests are kept, where the last
section of a name is the one that is found (`extract_of_sections_eq`).
-/

namespace RequestBook

/-! ## Blocks that say the same -/

/-- One block says what another says, some lines further down and with a
greater number. Their places among the headings may differ. -/
structure Block.Repeats (down up : Nat) (copy b : Block) : Prop where
  id : copy.id = b.id + up
  kind : copy.kind = b.kind
  content : copy.content = b.content
  firstLine : copy.firstLine = b.firstLine + down

/-- A result whose warnings speak about lines further down. -/
def warningsMoved {α : Type} (down : Nat) (result : α × List Diagnostic) :
    α × List Diagnostic :=
  (result.1, result.2.map (Diagnostic.moved down))

section Repeats

variable {down up : Nat} {heading heading' value value' : Block}

theorem decoded_repeats {α : Type} (default : α) (decode : Text → Except Json.Fault α)
    (lang : Text) (h : value'.Repeats down up value) :
    decoded default decode lang value' =
      warningsMoved down (decoded default decode lang value) := by
  rw [decoded, decoded, h.content, h.firstLine]
  split
  · rfl
  · cases decode value.content <;> rfl

theorem fieldRole?_repeats (hheading : heading'.Repeats down up heading)
    (hvalue : value'.Repeats down up value) :
    fieldRole? heading' value' = fieldRole? heading value := by
  rw [fieldRole?, fieldRole?, hheading.content, hvalue.kind]

theorem setPart_repeats (r : Request) (role : FieldRole) (h : value'.Repeats down up value) :
    setPart r role value' = warningsMoved down (setPart r role value) := by
  cases role with
  | line =>
      rw [setPart, setPart, h.content, h.firstLine]
      cases RequestLine.read? value.content <;> rfl
  | body lang =>
      rw [setPart, setPart, h.content]
      rfl
  | param lang =>
      rw [setPart, setPart, decoded_repeats _ _ _ h]
      rfl
  | segments lang =>
      rw [setPart, setPart, decoded_repeats _ _ _ h]
      rfl
  | header lang =>
      rw [setPart, setPart, decoded_repeats _ _ _ h]
      rfl

/-- A field further down sets the same, and warns further down. -/
theorem applyField_repeats (r : Request) (hheading : heading'.Repeats down up heading)
    (hvalue : value'.Repeats down up value) :
    applyField r ⟨heading', some value'⟩ =
      warningsMoved down (applyField r ⟨heading, some value⟩) := by
  simp only [applyField, fieldRole?_repeats hheading hvalue]
  cases fieldRole? heading value with
  | some role => exact setPart_repeats r role hvalue
  | none => rfl

/-- A field whose value is a heading sets nothing. -/
theorem applyField_heading (r : Request) (hvalue : value.isHeading = true) :
    applyField r ⟨heading, some value⟩ = (r, []) := by
  have hrole : fieldRole? heading value = none := by
    rw [fieldRole?]
    rw [Block.isHeading] at hvalue
    cases hkind : value.kind with
    | heading level order | paragraph => rfl
    | quote | fence =>
        rw [hkind] at hvalue
        cases hvalue
  simp only [applyField, hrole]

end Repeats

/-! ## Fields by number -/

/-- A request after the field that a number names, if it names one. -/
def applyUnder (blocks : List Block) (r : Request) (id : Nat) : Request × List Diagnostic :=
  ((blockNumbered? blocks id).bind (fieldUnder? blocks)).elim (r, []) (applyField r)

theorem applyFields_fieldsOf_cons (blocks : List Block) (r : Request) (id : Nat)
    (ids : List Nat) :
    applyFields r (fieldsOf blocks (id :: ids)) =
      let (r, found) := applyUnder blocks r id
      let (r, more) := applyFields r (fieldsOf blocks ids)
      (r, found ++ more) := by
  rw [fieldsOf, List.filterMap_cons, ← fieldsOf, applyUnder]
  cases (blockNumbered? blocks id).bind (fieldUnder? blocks) with
  | none => rfl
  | some field => rw [applyFields]; rfl

/-- A number names in one list of blocks what a smaller number names in
another. -/
def NamedAlike (whole part : List Block) (down up id : Nat) : Prop :=
  ∃ copy b, blockNumbered? whole (id + up) = some copy ∧ blockNumbered? part id = some b ∧
    copy.Repeats down up b

/-- A field heading has in one list of blocks the children that it has in
another, and behind them headings only. -/
def HeadingsBehind (whole part : List Block) (down up id : Nat) : Prop :=
  ∀ copy b, blockNumbered? whole (id + up) = some copy → blockNumbered? part id = some b →
    b.isHeadingAt fieldLevel = true →
    ∃ extra, copy.children = b.children.map (· + up) ++ extra ∧
      (∀ v ∈ b.children, NamedAlike whole part down up v) ∧
      ∀ v ∈ extra, ∃ above, blockNumbered? whole v = some above ∧ above.isHeading = true

section Alike

variable {whole part : List Block} {down up id : Nat} {ids : List Nat}

theorem isHeadingAt_repeats {copy b : Block} (h : copy.Repeats down up b) (level : Nat) :
    copy.isHeadingAt level = b.isHeadingAt level := by
  rw [Block.isHeadingAt, Block.isHeadingAt, h.kind]

/-- The first child of a field heading decides. It is the same in both lists,
or there is none in the second and a heading in the first. -/
theorem applyUnder_repeats (r : Request) (hnamed : NamedAlike whole part down up id)
    (hbehind : HeadingsBehind whole part down up id) :
    applyUnder whole r (id + up) = warningsMoved down (applyUnder part r id) := by
  obtain ⟨copy, b, hcopy, hb, hrep⟩ := hnamed
  rw [applyUnder, applyUnder, hcopy, hb, Option.bind_some, Option.bind_some, fieldUnder?,
    fieldUnder?, isHeadingAt_repeats hrep]
  cases hlevel : b.isHeadingAt fieldLevel with
  | false => rfl
  | true =>
      obtain ⟨extra, hchildren, halike, hextra⟩ := hbehind copy b hcopy hb hlevel
      rw [hchildren]
      cases hown : b.children with
      | cons v more =>
          obtain ⟨value', value, hvalue', hvalue, hvrep⟩ :=
            halike v (hown ▸ List.mem_cons_self)
          simp only [List.map_cons, List.cons_append, hvalue', hvalue, Option.elim_some]
          exact applyField_repeats r hrep hvrep
      | nil =>
          cases extra with
          | nil => rfl
          | cons v more =>
              obtain ⟨above, habove, hheading⟩ := hextra v List.mem_cons_self
              simp only [List.map_nil, List.nil_append, habove, Option.elim_some]
              exact applyField_heading r hheading

theorem applyFields_repeats (r : Request)
    (hnamed : ∀ id ∈ ids, NamedAlike whole part down up id)
    (hbehind : ∀ id ∈ ids, HeadingsBehind whole part down up id) :
    applyFields r (fieldsOf whole (ids.map (· + up))) =
      warningsMoved down (applyFields r (fieldsOf part ids)) := by
  induction ids generalizing r with
  | nil => rfl
  | cons id ids ih =>
      obtain ⟨hfirst, hrest⟩ := List.forall_mem_cons.mp hnamed
      obtain ⟨hfirst', hrest'⟩ := List.forall_mem_cons.mp hbehind
      rw [List.map_cons, applyFields_fieldsOf_cons, applyFields_fieldsOf_cons,
        applyUnder_repeats r hfirst hfirst']
      simp only [warningsMoved, ih _ hrest hrest', List.map_append]

end Alike

/-! ## Names -/

theorem setPart_named (r : Request) (role : FieldRole) (value : Block) (name : Text) :
    setPart { r with name } role value =
      ({ (setPart r role value).1 with name }, (setPart r role value).2) := by
  cases role with
  | line =>
      rw [setPart, setPart]
      cases RequestLine.read? value.content <;> rfl
  | body lang | param lang | segments lang | header lang => rfl

theorem applyField_named (r : Request) (field : SectionField) (name : Text) :
    applyField { r with name } field =
      ({ (applyField r field).1 with name }, (applyField r field).2) := by
  rw [applyField, applyField]
  cases field.value with
  | none => rfl
  | some value =>
      simp only []
      cases fieldRole? field.heading value with
      | none => rfl
      | some role => exact setPart_named r role value name

/-- Fields do not read the name. -/
theorem applyFields_named (r : Request) (fields : List SectionField) (name : Text) :
    applyFields { r with name } fields =
      ({ (applyFields r fields).1 with name }, (applyFields r fields).2) := by
  induction fields generalizing r with
  | nil => rfl
  | cons field fields ih =>
      rw [applyFields, applyFields, applyField_named]
      simp only [ih]

theorem applyFields_name (r : Request) (fields : List SectionField) :
    (applyFields r fields).1.name = r.name := by
  have h := applyFields_named r fields r.name
  exact congrArg (fun result => result.1.name) h

theorem Section.request_name (s : Section) : s.request.1.name = s.name :=
  applyFields_name _ _

theorem lookup_putEntry {α : Type} (key k : Text) (value : α) (entries : List (Text × α)) :
    (putEntry key value entries).lookup k = if k = key then some value else entries.lookup k := by
  induction entries with
  | nil =>
      rw [putEntry, List.lookup_cons]
      by_cases hk : k = key
      · rw [hk, beq_self_eq_true, if_pos rfl]
      · rw [beq_false_of_ne hk, if_neg hk]
  | cons entry rest ih =>
      rw [putEntry]
      by_cases hkey : entry.1 = key
      · rw [if_pos hkey, List.lookup_cons, List.lookup_cons, hkey]
        by_cases hk : k = key
        · rw [hk, beq_self_eq_true, if_pos rfl]
        · rw [beq_false_of_ne hk, if_neg hk]
      · rw [if_neg hkey, List.lookup_cons, List.lookup_cons, ih]
        by_cases hk : k = entry.1
        · rw [hk, beq_self_eq_true]
          simp only [if_neg hkey]
        · rw [beq_false_of_ne hk]

theorem add_empty (s : Section) :
    Extraction.add {} s = ⟨[(s.name, s.request.1)], s.request.2⟩ := by
  rw [Extraction.add]
  simp only [putEntry, s.request_name, List.map_nil, List.nil_append, List.contains_nil,
    Bool.false_eq_true, if_false, List.append_nil]

theorem lookup_add (done : Extraction) (s : Section) (name : Text) :
    (done.add s).requests.lookup name =
      if name = s.name then some s.request.1 else done.requests.lookup name := by
  rw [Extraction.add, lookup_putEntry, s.request_name]

theorem lookup_foldl_add {later : List Section} {name : Text}
    (h : ∀ t ∈ later, t.name ≠ name) (done : Extraction) :
    (later.foldl Extraction.add done).requests.lookup name = done.requests.lookup name := by
  induction later generalizing done with
  | nil => rfl
  | cons t later ih =>
      obtain ⟨ht, hlater⟩ := List.forall_mem_cons.mp h
      rw [List.foldl_cons, ih hlater, lookup_add, if_neg ht.symm]

theorem diagnostics_foldl_add (later : List Section) (done : Extraction) :
    done.diagnostics <+: (later.foldl Extraction.add done).diagnostics := by
  induction later generalizing done with
  | nil => exact List.prefix_rfl
  | cons t later ih =>
      refine List.IsPrefix.trans ?_ (ih (done.add t))
      simp only [Extraction.add, List.append_assoc]
      exact List.prefix_append _ _

/-- The last section of a name is what is found under it, and the warnings of
every section are kept together. -/
theorem extract_of_sections_eq {blocks : List Block} {earlier later : List Section}
    {s : Section} (hs : sections blocks = earlier ++ s :: later) :
    s.request.2 <:+: (extract blocks).diagnostics ∧
      ((∀ t ∈ later, t.name ≠ s.name) →
        (extract blocks).requests.lookup s.name = some s.request.1) := by
  rw [extract, hs, List.foldl_append, List.foldl_cons]
  refine ⟨?_, fun hlast => ?_⟩
  · refine List.IsInfix.trans ?_ (diagnostics_foldl_add later _).isInfix
    rw [Extraction.add]
    exact List.infix_append _ _ _
  · rw [lookup_foldl_add hlast, lookup_add, if_pos rfl]

end RequestBook
