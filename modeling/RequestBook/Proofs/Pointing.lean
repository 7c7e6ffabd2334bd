import RequestBook.Proofs.Taking

/-!
# Where diagnostics point

The diagnostics of a document come from two places. Reading finds fences that
are never closed, in the order of their lines. What the sections add names the
first line of a block, and the problem says what block that is: a quote, fenced
json or the heading of a section. So every line that a diagnostic names is
there, and none of them is zero, the first line of a block without lines.

All problems of the standard constructs that weigh more than a warning are
answers at a line that does not begin the construct, and the grammar never asks
there.
-/

namespace RequestBook

/-! ## Lines of blocks -/

section Built

variable {lines : List Text} {b : Block} {number : Nat}

/-- The first line of a block exists, and its kind can be read off that line. -/
theorem Block.BuiltFrom.first (h : b.BuiltFrom lines) :
    b.lines.head? = some b.firstLine ∧ 1 ≤ b.firstLine ∧ b.firstLine ≤ lines.length ∧
      ∃ line, lineNumbered? lines b.firstLine = some line ∧ kindFrom line = b.kind := by
  obtain ⟨first, count, hfirst, hcount, hend, hlines⟩ := h.run
  obtain ⟨rest, rfl⟩ : ∃ rest, count = rest + 1 := ⟨count - 1, by omega⟩
  have hline : b.firstLine = first := by
    rw [Block.firstLine, hlines, List.range'_succ, List.headD_cons]
  obtain ⟨line, hnumber, -, hkind⟩ := h.kind
  refine ⟨?_, by omega, by omega, line, hnumber, hkind.symm⟩
  rw [hline, hlines, List.range'_succ, List.head?_cons]

theorem lineNumbered?_bounds {line : Text} (h : lineNumbered? lines number = some line) :
    1 ≤ number ∧ number ≤ lines.length := by
  cases number with
  | zero => cases h
  | succ n =>
      have hlt := (List.getElem?_eq_some_iff.mp h).1
      omega

end Built

/-! ## Problems with sections -/

/-- What block a problem can be about, if it is one that a section reports. -/
def Problem.Concerns : Problem → Block → Prop
  | .unreadableRequestLine, b => b.kind = .quote
  | .undecodableJson _, b => b.kind = .fence "json".toList
  | .duplicateName _, b => b.isHeadingAt sectionLevel = true
  | _, _ => False

theorem Problem.Concerns.severity {problem : Problem} {b : Block} (h : problem.Concerns b) :
    problem.severity = .warning := by
  cases problem with
  | unreadableRequestLine | undecodableJson | duplicateName => rfl
  | expected | unterminatedFence | missingValue | reported => cases h

/-- No problem is about the heading of a field. -/
theorem Problem.Concerns.not_field {problem : Problem} {b : Block} (h : problem.Concerns b) :
    b.isHeadingAt fieldLevel = false := by
  cases problem with
  | unreadableRequestLine | undecodableJson =>
      rw [Block.isHeadingAt, show b.kind = _ from h]
      rfl
  | duplicateName name =>
      rw [Bool.eq_false_iff]
      intro hlevel
      exact absurd (level_eq h hlevel) (by decide)
  | expected | unterminatedFence | missingValue | reported => cases h

namespace Hung

variable {blocks : List Block} (h : Hung blocks) {s : Section} {field : SectionField}
  {value : Block} {d : Diagnostic}

include h

theorem heading_of_mem_sections (hs : s ∈ sections blocks) :
    s.heading ∈ blocks ∧ s.heading.isHeadingAt sectionLevel = true := by
  rw [h.sections_eq] at hs
  obtain ⟨heading, hheading, rfl⟩ := List.mem_map.mp hs
  obtain ⟨hmem, hbegins⟩ := List.mem_filter.mp hheading
  exact ⟨hmem, level_of_beginsSection hbegins⟩

theorem mem_of_value (hs : s ∈ sections blocks) (hfield : field ∈ s.fields)
    (hvalue : field.value = some value) : value ∈ blocks := by
  rw [h.sections_eq] at hs
  obtain ⟨heading, -, rfl⟩ := List.mem_map.mp hs
  obtain ⟨id, -, hnamed⟩ := List.mem_filterMap.mp hfield
  obtain ⟨b, -, hunder⟩ := Option.bind_eq_some_iff.mp hnamed
  obtain ⟨-, valueId, more, -, rfl⟩ := fieldUnder?_eq_some hunder
  exact ((blockNumbered?_eq_some_iff h.numbered).mp hvalue).1

/-- What the sections of a document report is about one of its blocks. -/
theorem concerns_of_mem_extract (hd : d ∈ (extract blocks).diagnostics) :
    ∃ b ∈ blocks, d.problem.Concerns b ∧ d.line = b.firstLine := by
  obtain ⟨s, hs, rfl | ⟨field, hfield, hwarning⟩⟩ := mem_extract_diagnostics hd
  · obtain ⟨hmem, hlevel⟩ := h.heading_of_mem_sections hs
    exact ⟨s.heading, hmem, hlevel, rfl⟩
  · cases hwarning with
    | missing hnone =>
        have hsome := h.value_of_mem_sections hs hfield
        rw [hnone] at hsome
        cases hsome
    | line hvalue hkind => exact ⟨_, h.mem_of_value hs hfield hvalue, hkind, rfl⟩
    | json hvalue hkind detail => exact ⟨_, h.mem_of_value hs hfield hvalue, hkind, rfl⟩

end Hung

/-! ## Documents -/

/-- A diagnostic names the first line of a block that its problem can be about,
and that line begins such a block. -/
def Diagnostic.NamesBlock (lines : List Text) (blocks : List Block) (d : Diagnostic) : Prop :=
  ∃ b ∈ blocks, d.problem.Concerns b ∧ b.lines.head? = some d.line ∧
    ∃ line, lineNumbered? lines d.line = some line ∧ kindFrom line = b.kind

/-- How the diagnostics of a book point into the lines it was read from. -/
structure Book.PointsInto (lines : List Text) (book : Book) : Prop where
  warnings : ∀ d ∈ book.diagnostics, d.isWarning = true
  inside : ∀ d ∈ book.diagnostics, 1 ≤ d.line ∧ d.line ≤ lines.length
  /-- First come the fences, in the order of their lines, then the blocks. -/
  parted : ∃ faults found, book.diagnostics = faults ++ found ∧
    (faults.Pairwise fun a b => a.line < b.line) ∧ (∀ d ∈ faults, d.NamesOpenFence lines) ∧
    ∀ d ∈ found, d.NamesBlock lines book.outline.blocks

theorem namesBlock_of_mem_extract {lines : List Text} {d : Diagnostic}
    (hd : d ∈ (extract (Grammar.standard.read lines).blocks).diagnostics) :
    d.NamesBlock lines (Grammar.standard.read lines).blocks := by
  obtain ⟨b, hb, hconcerns, hline⟩ := (read_hung lines).concerns_of_mem_extract hd
  obtain ⟨hhead, -, -, hbegins⟩ := (built_of_mem hb).first
  rw [← hline] at hhead hbegins
  exact ⟨b, hb, hconcerns, hhead, hbegins⟩

theorem names_of_mem_compile {text : Text} {d : Diagnostic}
    (hd : d ∈ (Book.compile text).diagnostics) :
    d.NamesOpenFence (Text.documentLines text) ∨
      d.NamesBlock (Text.documentLines text) (Book.compile text).outline.blocks := by
  rcases List.mem_append.mp hd with hfault | hsection
  · exact .inl (namesOpenFence_of_mem hfault)
  · exact .inr (namesBlock_of_mem_extract hsection)

/-- A diagnostic names a line that is there. -/
theorem line_bounds_of_mem_compile {text : Text} {d : Diagnostic}
    (hd : d ∈ (Book.compile text).diagnostics) :
    1 ≤ d.line ∧ d.line ≤ (Text.documentLines text).length := by
  rcases names_of_mem_compile hd with hfence | ⟨b, -, -, -, line, hline, -⟩
  · obtain ⟨first, hfirst, -⟩ := hfence.opens
    exact lineNumbered?_bounds hfirst
  · exact lineNumbered?_bounds hline

/-- Every diagnostic is a warning about a line that is there, and its problem
tells what stands on that line. -/
theorem compile_pointsInto (text : Text) :
    (Book.compile text).PointsInto (Text.documentLines text) := by
  refine ⟨fun d hd => ?_, fun d hd => line_bounds_of_mem_compile hd, ?_⟩
  · rcases names_of_mem_compile hd with hfence | ⟨b, -, hconcerns, -⟩
    · rw [Diagnostic.isWarning, Diagnostic.severity, hfence.problem]
      rfl
    · rw [Diagnostic.isWarning, Diagnostic.severity, hconcerns.severity]
      rfl
  · exact ⟨(Grammar.standard.readText text).diagnostics,
      (extract (Grammar.standard.readText text).blocks).diagnostics, rfl,
      read_faults_increase _, fun d hd => namesOpenFence_of_mem hd,
      fun d hd => namesBlock_of_mem_extract hd⟩

end RequestBook
