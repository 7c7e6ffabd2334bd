import RequestBook.Proofs.Taking

/-!
# Names of requests

A book has one request for each name among its sections. The names stand in the
order in which they first came, and the request of a name is that of the last
section with it (`catalogued`). Every section whose name came before has a
warning on the line of its heading, so warnings and names together are as many
as sections.

All of this is one run of `Extraction.add`, whose steps see of what was done
before the names alone: `keys_putEntry` says what a step does to them. Looking
a name up takes the very name first, so no name in another case can hide it.
-/

namespace RequestBook

/-! ## Sections and their names -/

/-- The problem is that a name has been used before. -/
def Problem.isRepetition : Problem → Bool
  | .duplicateName _ => true
  | _ => false

/-- What is said about a section whose name has been used before. -/
def Section.repetition (s : Section) : Diagnostic :=
  ⟨.duplicateName s.name, s.heading.firstLine⟩

/-- The sections whose name an earlier section has, in order. -/
def repeatedSections (found : List Section) : List Section :=
  (found.zipIdx.filter fun (s, i) => ((found.take i).map (·.name)).contains s.name).map Prod.fst

theorem sectionsFrom_heading {blocks headings : List Block} {taken : List Nat} :
    (sectionsFrom blocks headings taken).map (·.heading) = headings ∧
      ∀ s ∈ sectionsFrom blocks headings taken, s.name = sectionName blocks s.heading := by
  induction headings generalizing taken with
  | nil => exact ⟨rfl, fun s hs => nomatch hs⟩
  | cons heading headings ih =>
      rw [sectionsFrom]
      refine ⟨congrArg (heading :: ·) ih.1, fun s hs => ?_⟩
      rcases List.mem_cons.mp hs with rfl | hs
      · rfl
      · exact ih.2 s hs

theorem repeatedSections_concat (found : List Section) (s : Section) :
    repeatedSections (found ++ [s]) =
      repeatedSections found ++ if s.name ∈ found.map (·.name) then [s] else [] := by
  have hold : ∀ entry ∈ found.zipIdx,
      (((found ++ [s]).take entry.2).map (·.name)).contains entry.1.name =
        ((found.take entry.2).map (·.name)).contains entry.1.name := by
    intro entry hentry
    have hlt : entry.2 < found.length := by
      have := List.snd_lt_of_mem_zipIdx hentry
      omega
    rw [List.take_append_of_le_length (by omega)]
  rw [repeatedSections, repeatedSections, List.zipIdx_append, List.filter_append,
    List.filter_congr hold, List.map_append]
  congr 1
  by_cases hname : s.name ∈ found.map (·.name)
  · simp [hname]
  · simp [hname]

/-! ## Names in the order of first writing -/

theorem keys_putEntry {α : Type} (key : Text) (value : α) (entries : List (Text × α)) :
    (putEntry key value entries).map Prod.fst =
      entries.map Prod.fst ++ if key ∈ entries.map Prod.fst then [] else [key] := by
  induction entries with
  | nil => simp [putEntry]
  | cons entry rest ih =>
      rw [putEntry]
      by_cases hkey : entry.1 = key
      · simp [hkey]
      · have hkey' : key ≠ entry.1 := fun h => hkey h.symm
        rw [if_neg hkey, List.map_cons, List.map_cons, ih]
        simp only [List.mem_cons, hkey', false_or, List.cons_append]

theorem eraseDups_concat (names : List Text) (name : Text) :
    (names ++ [name]).eraseDups = names.eraseDups ++ if name ∈ names then [] else [name] := by
  rw [List.eraseDups_append]
  by_cases hname : name ∈ names
  · simp [List.removeAll, hname]
  · simp [List.removeAll, hname, List.eraseDups_cons]

/-! ## One run over the sections -/

theorem isRepetition_of_mem_request {s : Section} {d : Diagnostic} (hd : d ∈ s.request.2) :
    d.problem.isRepetition = false := by
  obtain ⟨field, -, hwarning⟩ := mem_applyFields hd
  cases hwarning with
  | missing | line | json => rfl

theorem names_foldl_add (found : List Section) :
    (found.foldl Extraction.add {}).requests.map Prod.fst =
      (found.map (·.name)).eraseDups := by
  induction found using List.reverseRecOn with
  | nil => rfl
  | append_singleton found s ih =>
      rw [List.foldl_append, List.foldl_cons, List.foldl_nil, requests_add, keys_putEntry, ih,
        List.map_append, List.map_singleton, eraseDups_concat]
      simp only [List.mem_eraseDups]

theorem repetitions_foldl_add (found : List Section) :
    (found.foldl Extraction.add {}).diagnostics.filter (·.problem.isRepetition) =
      (repeatedSections found).map Section.repetition := by
  induction found using List.reverseRecOn with
  | nil => rfl
  | append_singleton found s ih =>
      have hown : s.request.2.filter (·.problem.isRepetition) = [] := by
        rw [List.filter_eq_nil_iff]
        intro d hd
        rw [isRepetition_of_mem_request hd]
        exact Bool.false_ne_true
      rw [List.foldl_append, List.foldl_cons, List.foldl_nil, Extraction.add, names_foldl_add]
      simp only [List.filter_append, ih, hown, List.append_nil, repeatedSections_concat,
        List.map_append, List.contains_iff_mem, List.mem_eraseDups]
      congr 1
      by_cases hname : s.name ∈ found.map (·.name)
      · rw [if_pos hname, if_pos hname]
        rfl
      · rw [if_neg hname, if_neg hname]
        rfl

/-- Each section brings a new name or is one too many. -/
theorem length_repeatedSections (found : List Section) :
    (repeatedSections found).length + (found.map (·.name)).eraseDups.length = found.length := by
  induction found using List.reverseRecOn with
  | nil => rfl
  | append_singleton found s ih =>
      rw [repeatedSections_concat, List.map_append, List.map_singleton, eraseDups_concat]
      by_cases hname : s.name ∈ found.map (·.name)
      · simp only [if_pos hname, List.length_append, List.length_singleton, List.length_nil]
        omega
      · simp only [if_neg hname, List.length_append, List.length_singleton, List.length_nil]
        omega

/-! ## Looking up -/

theorem lookup_of_mem {α : Type} {entries : List (Text × α)} {key : Text} {value : α}
    (hdistinct : (entries.map Prod.fst).Nodup) (h : (key, value) ∈ entries) :
    entries.lookup key = some value := by
  obtain ⟨before, after, rfl⟩ := List.append_of_mem h
  rw [List.map_append, List.nodup_append] at hdistinct
  refine List.lookup_eq_some_iff.mpr ⟨before, after, rfl, fun entry hentry => ?_⟩
  rw [bne_iff_ne]
  exact (hdistinct.2.2 entry.1 (List.mem_map_of_mem hentry) key List.mem_cons_self).symm

theorem mem_of_lookup {α : Type} {entries : List (Text × α)} {key : Text} {value : α}
    (h : entries.lookup key = some value) : (key, value) ∈ entries := by
  obtain ⟨before, after, rfl, -⟩ := List.lookup_eq_some_iff.mp h
  exact List.mem_append_right _ List.mem_cons_self

namespace Book

variable {book : Book} {name : Text}

theorem find_eq_of_not_mem (h : name ∉ book.names) :
    book.find name =
      (book.requests.find? fun entry => Text.lower entry.1 == Text.lower name).elim
        (.error (.notFound name)) fun entry => .ok entry.2 := by
  have hnone : book.requests.lookup name = none := by
    rw [List.lookup_eq_none_iff]
    intro entry hentry
    rw [bne_iff_ne]
    rintro rfl
    exact h (List.mem_map_of_mem hentry)
  simp only [find, hnone]
  cases book.requests.find? fun entry => Text.lower entry.1 == Text.lower name with
  | none | some entry => rfl

/-- A name that is not there stands for the first one equal to it in small
letters. -/
theorem find_folded (h : name ∉ book.names) {earlier later : List (Text × Request)}
    {entry : Text × Request} (hrequests : book.requests = earlier ++ entry :: later)
    (hequal : Text.lower entry.1 = Text.lower name)
    (hfirst : ∀ other ∈ earlier, Text.lower other.1 ≠ Text.lower name) :
    book.find name = .ok entry.2 := by
  have hfound : book.requests.find? (fun entry => Text.lower entry.1 == Text.lower name) =
      some entry := by
    rw [List.find?_eq_some_iff_append]
    refine ⟨by rw [hequal, beq_self_eq_true], earlier, later, hrequests, fun other hother => ?_⟩
    rw [beq_false_of_ne (hfirst other hother)]
    rfl
  rw [find_eq_of_not_mem h, hfound, Option.elim_some]

theorem find_missing (h : ∀ key ∈ book.names, Text.lower key ≠ Text.lower name) :
    book.find name = .error (.notFound name) := by
  have hnone : book.requests.find? (fun entry => Text.lower entry.1 == Text.lower name) =
      none := by
    rw [List.find?_eq_none]
    intro entry hentry
    rw [beq_iff_eq]
    exact h entry.1 (List.mem_map_of_mem hentry)
  rw [find_eq_of_not_mem fun hmem => h name hmem rfl, hnone, Option.elim_none]

end Book

/-! ## Books -/

/-- How a book keeps the requests of its sections by name, given the diagnostics
among which the repeated names are to be found. -/
structure Book.Catalogued (book : Book) (diagnostics : List Diagnostic) : Prop where
  /-- Every heading of the second level with blocks below it begins one section. -/
  headings : (sections book.outline.blocks).map (·.heading) =
    book.outline.blocks.filter beginsSection
  titles : ∀ s ∈ sections book.outline.blocks,
    s.name = sectionName book.outline.blocks s.heading
  /-- The names are distinct and stand where they first came. -/
  names : book.names = ((sections book.outline.blocks).map (·.name)).eraseDups
  requests : ∀ name r, (name, r) ∈ book.requests ↔
    ∃ earlier s later, sections book.outline.blocks = earlier ++ s :: later ∧
      s.name = name ∧ s.request.1 = r ∧ ∀ other ∈ later, other.name ≠ name
  own : ∀ name r, (name, r) ∈ book.requests → r.name = name
  repetitions : diagnostics.filter (·.problem.isRepetition) =
    (repeatedSections (sections book.outline.blocks)).map Section.repetition
  counted : (diagnostics.filter (·.problem.isRepetition)).length + book.names.length =
    (sections book.outline.blocks).length
  exact : ∀ name r, (name, r) ∈ book.requests → book.find name = .ok r
  folded : ∀ name ∉ book.names, ∀ earlier entry later,
    book.requests = earlier ++ entry :: later → Text.lower entry.1 = Text.lower name →
    (∀ other ∈ earlier, Text.lower other.1 ≠ Text.lower name) → book.find name = .ok entry.2
  missing : ∀ name, (∀ key ∈ book.names, Text.lower key ≠ Text.lower name) →
    book.find name = .error (.notFound name)

theorem ofOutline_catalogued (outline : Outline) :
    (Book.ofOutline outline).Catalogued (extract outline.blocks).diagnostics := by
  have hdistinct : ((extract outline.blocks).requests.map Prod.fst).Nodup :=
    nodup_keys_foldl_add _
  have hnames : (Book.ofOutline outline).names =
      ((sections outline.blocks).map (·.name)).eraseDups := names_foldl_add _
  have hrepetitions : (extract outline.blocks).diagnostics.filter (·.problem.isRepetition) =
      (repeatedSections (sections outline.blocks)).map Section.repetition :=
    repetitions_foldl_add _
  refine {
    headings := sectionsFrom_heading.1
    titles := sectionsFrom_heading.2
    names := hnames
    requests := fun name r => ⟨exists_last_section, ?_⟩
    own := fun name r hmem => ?_
    repetitions := hrepetitions
    counted := ?_
    exact := fun name r hmem => ?_
    folded := fun name hname earlier entry later hrequests hequal hfirst =>
      Book.find_folded hname hrequests hequal hfirst
    missing := fun name hmissing => Book.find_missing hmissing }
  · rintro ⟨earlier, s, later, hsections, rfl, rfl, hlast⟩
    exact mem_of_lookup ((extract_of_sections_eq hsections).2 hlast)
  · obtain ⟨earlier, s, later, -, rfl, rfl, -⟩ := exists_last_section hmem
    exact s.request_name
  · rw [hrepetitions, hnames, List.length_map]
    exact length_repeatedSections _
  · rw [Book.find, show (Book.ofOutline outline).requests.lookup name = some r from
      lookup_of_mem hdistinct hmem]

/-- A book has the names of its sections, each with the request of its last
section and with a warning for each section before that, and finds them again.
In the book of a text no other diagnostic speaks about a repeated name. -/
theorem catalogued :
    (∀ outline : Outline,
      (Book.ofOutline outline).Catalogued (extract outline.blocks).diagnostics) ∧
    ∀ text, (Book.compile text).Catalogued (Book.compile text).diagnostics := by
  refine ⟨ofOutline_catalogued, fun text => ?_⟩
  have h := ofOutline_catalogued (Grammar.standard.readText text)
  have hfaults : (Grammar.standard.readText text).diagnostics.filter
      (·.problem.isRepetition) = [] := by
    rw [List.filter_eq_nil_iff]
    intro d hd
    rw [(namesOpenFence_of_mem hd).problem]
    exact Bool.false_ne_true
  have hall : (Book.compile text).diagnostics.filter (·.problem.isRepetition) =
      (extract (Grammar.standard.readText text).blocks).diagnostics.filter
        (·.problem.isRepetition) := by
    rw [Book.compile, Book.ofOutline, List.filter_append, hfaults, List.nil_append]
  refine { h with repetitions := ?_, counted := ?_ }
  · rw [hall]
    exact h.repetitions
  · rw [hall]
    exact h.counted

/-- Names that differ in case are apart, and each is found as it is written. -/
example :
    let book := Book.compile "## a\n### url\n## A\n### url\n## a\n### url".toList
    book.names = ["a".toList, "A".toList] ∧ book.diagnostics.map (·.line) = [5] ∧
      (book.find "A".toList).map (·.name) = .ok "A".toList := by
  decide +kernel

end RequestBook
