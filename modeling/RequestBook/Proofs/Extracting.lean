import RequestBook.Proofs.Applying

/-!
# What an extraction keeps

Of every section an extraction keeps a name, a request and some warnings. Of
several sections of one name the last one's request is kept
(`exists_last_section`), in the place of the first; no other part of a section
decides which requests there are (`requests_foldl_add`).

A field warns in three ways only (`FieldWarning`): its value is not there, its
request line cannot be read, or its json cannot be decoded. A section adds one
warning of its own, that its name has been used before. Nothing else gets
among the problems of an extraction (`mem_extract_diagnostics`).
-/

namespace RequestBook

/-! ## Requests -/

theorem requests_add (done : Extraction) (s : Section) :
    (done.add s).requests = putEntry s.name s.request.1 done.requests := by
  show putEntry s.request.1.name s.request.1 done.requests = _
  rw [s.request_name]

/-- The names and the requests of the sections are all that is kept as
requests. -/
theorem requests_foldl_add (found : List Section) (done : Extraction) :
    (found.foldl Extraction.add done).requests =
      (found.map fun s => (s.name, s.request.1)).foldl
        (fun entries entry => putEntry entry.1 entry.2 entries) done.requests := by
  induction found generalizing done with
  | nil => rfl
  | cons s found ih =>
      rw [List.foldl_cons, ih, List.map_cons, List.foldl_cons, requests_add]

theorem nodup_keys_foldl_add (found : List Section) :
    ((found.foldl Extraction.add {}).requests.map Prod.fst).Nodup := by
  induction found using List.reverseRecOn with
  | nil => exact .nil
  | append_singleton found s ih =>
      rw [List.foldl_append]
      exact nodup_keys_putEntry ih

theorem mem_putEntry {α : Type} {key : Text} {value : α} {entries : List (Text × α)}
    (hdistinct : (entries.map Prod.fst).Nodup) {entry : Text × α}
    (h : entry ∈ putEntry key value entries) :
    entry = (key, value) ∨ entry.1 ≠ key ∧ entry ∈ entries := by
  induction entries with
  | nil => exact .inl (List.mem_singleton.mp h)
  | cons first rest ih =>
      obtain ⟨hfresh, hrest⟩ := List.nodup_cons.mp hdistinct
      rw [putEntry] at h
      split at h
      · next hkey =>
          refine (List.mem_cons.mp h).imp id fun hmem => ⟨?_, List.mem_cons_of_mem _ hmem⟩
          rintro rfl
          exact hfresh (hkey ▸ List.mem_map_of_mem hmem)
      · next hkey =>
          rcases List.mem_cons.mp h with rfl | hmem
          · exact .inr ⟨hkey, List.mem_cons_self⟩
          · exact (ih hrest hmem).imp_right (And.imp_right (List.mem_cons_of_mem first))

/-- A request that is kept was made of the last section of its name. -/
theorem exists_last_section {found : List Section} {name : Text} {r : Request}
    (h : (name, r) ∈ (found.foldl Extraction.add {}).requests) :
    ∃ earlier s later, found = earlier ++ s :: later ∧ s.name = name ∧ s.request.1 = r ∧
      ∀ other ∈ later, other.name ≠ name := by
  induction found using List.reverseRecOn with
  | nil => cases h
  | append_singleton found s ih =>
      rw [List.foldl_append, List.foldl_cons, List.foldl_nil, requests_add] at h
      rcases mem_putEntry (nodup_keys_foldl_add found) h with hlast | ⟨hne, hold⟩
      · obtain ⟨rfl, rfl⟩ := Prod.mk.inj hlast
        exact ⟨found, s, [], rfl, rfl, rfl, fun _ hmem => nomatch hmem⟩
      · obtain ⟨earlier, own, later, rfl, hname, hrequest, hlater⟩ := ih hold
        refine ⟨earlier, own, later ++ [s], by simp, hname, hrequest, fun other hother => ?_⟩
        rcases List.mem_append.mp hother with hmem | hmem
        · exact hlater other hmem
        · rw [List.mem_singleton.mp hmem]
          exact fun heq => hne heq.symm

/-! ## Warnings -/

/-- The kind of value that a part of a request is set from. -/
def FieldRole.kind : FieldRole → Block.Kind
  | .line => .quote
  | .body lang | .param lang | .segments lang | .header lang => .fence lang

theorem kind_of_fieldRole? {heading value : Block} {role : FieldRole}
    (h : fieldRole? heading value = some role) : value.kind = role.kind := by
  simp only [fieldRole?] at h
  split at h
  · next hkind =>
      split at h
      · cases h
        exact hkind
      · cases h
  · next lang hkind =>
      rw [hkind]
      repeat'
        split at h
        · cases h
          rfl
      cases h
  · cases h

/-- A warning that a field can give. -/
inductive FieldWarning (field : SectionField) : Diagnostic → Prop where
  | missing (hvalue : field.value = none) :
      FieldWarning field
        ⟨.missingValue (Text.trim field.heading.content), field.heading.firstLine⟩
  | line {value : Block} (hvalue : field.value = some value) (hkind : value.kind = .quote) :
      FieldWarning field ⟨.unreadableRequestLine, value.firstLine⟩
  | json {value : Block} (hvalue : field.value = some value)
      (hkind : value.kind = .fence "json".toList) (detail : Text) :
      FieldWarning field ⟨.undecodableJson detail, value.firstLine⟩

section Field

variable {r : Request} {field : SectionField} {d : Diagnostic}

/-- Only json is decoded, so only json fails to decode. -/
theorem mem_decoded {α : Type} (default : α) (decode : Text → Except Json.Fault α) {lang : Text}
    {block : Block} (h : d ∈ (decoded default decode lang block).2) :
    lang = "json".toList ∧ ∃ detail, d = ⟨.undecodableJson detail, block.firstLine⟩ := by
  simp only [decoded] at h
  split at h
  · cases h
  · next hjson =>
      have hlang : lang = "json".toList := by
        simp only [Bool.or_eq_true, not_or, Bool.not_eq_true, Bool.not_eq_false'] at hjson
        exact eq_of_beq hjson.1
      split at h
      · cases h
      · next fault _ => exact ⟨hlang, fault.message, List.mem_singleton.mp h⟩

theorem mem_setPart {role : FieldRole} {value : Block} (hvalue : field.value = some value)
    (hkind : value.kind = role.kind) (h : d ∈ (setPart r role value).2) : FieldWarning field d := by
  have hjson {lang : Text} (hlang : value.kind = .fence lang) (hfail : lang = "json".toList ∧
      ∃ detail, d = ⟨.undecodableJson detail, value.firstLine⟩) : FieldWarning field d := by
    obtain ⟨rfl, detail, rfl⟩ := hfail
    exact .json hvalue hlang detail
  cases role with
  | line =>
      rw [setPart] at h
      split at h
      · cases h
      · rw [List.mem_singleton.mp h]
        exact .line hvalue hkind
  | body lang => cases h
  | param lang => exact hjson hkind (mem_decoded Fields.empty decodeParam h)
  | segments lang => exact hjson hkind (mem_decoded [] decodeSegments h)
  | header lang => exact hjson hkind (mem_decoded Fields.empty decodeHeader h)

theorem mem_applyField (h : d ∈ (applyField r field).2) : FieldWarning field d := by
  rw [applyField] at h
  split at h
  · next hvalue =>
      rw [List.mem_singleton.mp h]
      exact .missing hvalue
  · next value hvalue =>
      split at h
      · next role hrole => exact mem_setPart hvalue (kind_of_fieldRole? hrole) h
      · cases h

theorem mem_applyFields {fields : List SectionField} (h : d ∈ (applyFields r fields).2) :
    ∃ field ∈ fields, FieldWarning field d := by
  induction fields generalizing r with
  | nil => cases h
  | cons field fields ih =>
      rw [applyFields] at h
      rcases List.mem_append.mp h with hfirst | hrest
      · exact ⟨field, List.mem_cons_self, mem_applyField hfirst⟩
      · obtain ⟨later, hlater, hwarning⟩ := ih hrest
        exact ⟨later, List.mem_cons_of_mem _ hlater, hwarning⟩

theorem mem_foldl_add {found : List Section} {done : Extraction}
    (h : d ∈ (found.foldl Extraction.add done).diagnostics) :
    d ∈ done.diagnostics ∨ ∃ s ∈ found,
      d = ⟨.duplicateName s.name, s.heading.firstLine⟩ ∨
        ∃ field ∈ s.fields, FieldWarning field d := by
  induction found generalizing done with
  | nil => exact .inl h
  | cons s found ih =>
      rcases ih h with hfirst | ⟨later, hlater, hwarning⟩
      · simp only [Extraction.add] at hfirst
        rcases List.mem_append.mp hfirst with hbefore | hrepeated
        · rcases List.mem_append.mp hbefore with hdone | hown
          · exact .inl hdone
          · exact .inr ⟨s, List.mem_cons_self, .inr (mem_applyFields hown)⟩
        · split at hrepeated
          · exact .inr ⟨s, List.mem_cons_self, .inl (List.mem_singleton.mp hrepeated)⟩
          · cases hrepeated
      · exact .inr ⟨later, List.mem_cons_of_mem _ hlater, hwarning⟩

/-- Every warning of an extraction is given by a field, or is that a name has
been used before. -/
theorem mem_extract_diagnostics {blocks : List Block} (h : d ∈ (extract blocks).diagnostics) :
    ∃ s ∈ sections blocks, d = ⟨.duplicateName s.name, s.heading.firstLine⟩ ∨
      ∃ field ∈ s.fields, FieldWarning field d :=
  (mem_foldl_add h).resolve_left List.not_mem_nil

end Field

end RequestBook
