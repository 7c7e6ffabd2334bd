import Mathlib.Data.List.Chain
import RequestBook.Proofs.Splitting
import RequestBook.Expression

/-!
# An expression is read as it was spelled

An expression is cut three times, at its format, at its operation and at the
marks between its segments, and the characters that these are known by occur
elsewhere as well: a format may hold anything, a word may hold hyphens, and
blanks stand everywhere. `parse_spelled` says that the cuts fall where the
parts were put together.

What makes a cut fall too early is always two neighbours, an equals sign and
a greater sign, or a sign and a digit. A path has no such neighbours when its
segments have none, as the mark between two segments is neither
(`isChain_join`); blanks that are put in make no new neighbours of the ones
that they part (`isChain_of_withoutBlanks`). The sign of the operation itself
is found although blanks may stand before its digit, and the sign before it
in a word is not, as the next thing behind that one is no digit.
-/

namespace RequestBook

namespace Text

/-- The text without its blanks. -/
def withoutBlanks (t : Text) : Text := t.filter fun c => !isBlank c

/-- The second text is the first with blanks put in anywhere. -/
inductive Spread : Text → Text → Prop
  | nil : Spread [] []
  | blank {c : Char} {t u : Text} (hc : isBlank c = true) : Spread t u → Spread t (c :: u)
  | keep {c : Char} {t u : Text} : Spread t u → Spread (c :: t) (c :: u)

/-- The second text is the first with blanks put at its ends. -/
def Padded (t u : Text) : Prop :=
  ∃ before after, allBlank before = true ∧ allBlank after = true ∧ u = before ++ t ++ after

/-- A character that can begin an operation. -/
def IsSign (c : Char) : Prop := c = '+' ∨ c = '-'

instance (c : Char) : Decidable (IsSign c) := inferInstanceAs (Decidable (_ ∨ _))

end Text

namespace Expression

/-- What an expression is made of. -/
structure Parts where
  segments : List Text
  operation : Option Operation
  format : Option Text

/-- A segment of a path: no blanks, no marks, and nothing that would begin a
format or an operation. -/
structure IsSegment (s : Text) : Prop where
  full : ∀ c ∈ s, Text.isBlank c = false
  unmarked : segmentMark ∉ s
  formatless : ¬ formatMark <:+: s
  signless : s.IsChain fun c d => ¬ (Text.IsSign c ∧ d.isDigit = true)

/-- An operation that an expression can have: plus or minus, and an operand
that begins with a digit. -/
structure IsOperation (o : Operation) : Prop where
  operator : o.operator = .add ∨ o.operator = .sub
  trimmed : Text.trim o.operand = o.operand
  number : o.operand.head?.any Char.isDigit = true
  formatless : ¬ formatMark <:+: o.operand

/-- Parts that an expression can have. -/
structure Parts.Sound (p : Parts) : Prop where
  begun : ∃ first rest, p.segments = first :: rest ∧ first ≠ []
  segments : ∀ s ∈ p.segments, IsSegment s
  operation : ∀ o, p.operation = some o → IsOperation o
  format : ∀ f, p.format = some f → f ≠ [] ∧ Text.trim f = f

/-- An operation as it is written, if there is one. -/
inductive SpellsOperation : Option Operation → Text → Prop
  | absent : SpellsOperation none []
  | written {o : Operation} {operand : Text} (h : Text.Padded o.operand operand) :
      SpellsOperation (some o) (o.operator.symbol :: operand)

/-- A format as it is written, if there is one. -/
inductive SpellsFormat : Option Text → Text → Prop
  | absent : SpellsFormat none []
  | written {f format : Text} (h : Text.Padded f format) :
      SpellsFormat (some f) (formatMark ++ format)

/-- The parts as they are written: the segments with marks between them and
blanks anywhere, the operation, the format, and blanks around each of these.
A blank within an operand or a format is a part of it. -/
inductive Parts.Spells (p : Parts) : Text → Prop
  | intro {path operation format : Text}
      (hpath : Text.Spread (Text.join [segmentMark] p.segments) path)
      (hoperation : SpellsOperation p.operation operation)
      (hformat : SpellsFormat p.format format) :
      p.Spells (path ++ (operation ++ format))

end Expression

namespace Text

/-! ## Blanks that were put in -/

theorem withoutBlanks_append (s t : Text) :
    withoutBlanks (s ++ t) = withoutBlanks s ++ withoutBlanks t := List.filter_append _ _

theorem withoutBlanks_cons_blank {c : Char} (hc : isBlank c = true) (t : Text) :
    withoutBlanks (c :: t) = withoutBlanks t := by
  rw [withoutBlanks, List.filter_cons_of_neg (by simp [hc])]
  rfl

theorem withoutBlanks_cons_full {c : Char} (hc : isBlank c = false) (t : Text) :
    withoutBlanks (c :: t) = c :: withoutBlanks t := by
  rw [withoutBlanks, List.filter_cons_of_pos (by simp [hc])]
  rfl

theorem withoutBlanks_eq_nil_iff {t : Text} : withoutBlanks t = [] ↔ allBlank t = true := by
  simp [withoutBlanks, allBlank]

theorem withoutBlanks_eq_self_iff {t : Text} :
    withoutBlanks t = t ↔ ∀ c ∈ t, isBlank c = false := by
  simp [withoutBlanks]

theorem Spread.withoutBlanks_eq {t u : Text} (h : Spread t u) :
    withoutBlanks u = withoutBlanks t := by
  induction h with
  | nil => rfl
  | blank hc _ ih => rw [withoutBlanks_cons_blank hc, ih]
  | @keep c t u _ ih =>
      rw [withoutBlanks, withoutBlanks, List.filter_cons, List.filter_cons]
      rw [withoutBlanks, withoutBlanks] at ih
      rw [ih]

theorem spread_withoutBlanks (u : Text) : Spread (withoutBlanks u) u := by
  induction u with
  | nil => exact .nil
  | cons c u ih =>
      cases hc : isBlank c with
      | true =>
          rw [withoutBlanks_cons_blank hc]
          exact .blank hc ih
      | false =>
          rw [withoutBlanks_cons_full hc]
          exact .keep ih

/-- The first thing behind blanks is the first thing that is none. -/
theorem head?_trimStart (t : Text) : (trimStart t).head? = (withoutBlanks t).head? := by
  induction t with
  | nil => rfl
  | cons c t ih =>
      cases hc : isBlank c with
      | true =>
          rw [withoutBlanks_cons_blank hc, ← ih, trimStart, List.dropWhile_cons_of_pos hc]
          rfl
      | false =>
          rw [withoutBlanks_cons_full hc, trimStart,
            List.dropWhile_cons_of_neg (by simp [hc])]
          rfl

theorem Padded.trimEnd {t u : Text} (h : Padded t u) (ht : trim t = t) (hne : t ≠ []) :
    Padded t (trimEnd u) ∧ Text.trimEnd u ≠ [] := by
  obtain ⟨before, after, hbefore, hafter, rfl⟩ := h
  have htrim := trimEnd_of_trim ht
  have hkept : Text.trimEnd (before ++ t ++ after) = before ++ t := by
    rw [trimEnd_append_blanks hafter, trimEnd_append (by rw [htrim]; exact hne), htrim]
  rw [hkept]
  exact ⟨⟨before, [], hbefore, rfl, (List.append_nil _).symm⟩, by simp [hne]⟩

theorem Padded.trimStart {t u : Text} (h : Padded t u) (ht : trim t = t) (hne : t ≠ []) :
    ∃ after, allBlank after = true ∧ trimStart u = t ++ after := by
  obtain ⟨before, after, hbefore, hafter, rfl⟩ := h
  have hstart := trimStart_of_trim ht
  refine ⟨after, hafter, ?_⟩
  rw [List.append_assoc, trimStart_blanks_append hbefore,
    trimStart_append (by rw [hstart]; exact hne), hstart]

theorem Padded.trim_eq {t u : Text} (h : Padded t u) (ht : trim t = t) (hne : t ≠ []) :
    trim u = t := by
  obtain ⟨after, hafter, hstart⟩ := h.trimStart ht hne
  rw [trim, hstart, trimEnd_append_blanks hafter, trimEnd_of_trim ht]

theorem Spread.trimStart {t u : Text} (h : Spread t u) (ht : ∀ c ∈ t, isBlank c = false) :
    Spread t (trimStart u) := by
  induction h with
  | nil => exact .nil
  | @blank c t u hc _ ih =>
      rw [Text.trimStart, List.dropWhile_cons_of_pos hc]
      exact ih ht
  | @keep c t u h _ =>
      have hc : ¬ isBlank c = true := by simp [ht c List.mem_cons_self]
      rw [Text.trimStart, List.dropWhile_cons_of_neg hc]
      exact .keep h

theorem Spread.trimEnd {t u : Text} (h : Spread t u) (ht : ∀ c ∈ t, isBlank c = false) :
    Spread t (trimEnd u) := by
  induction h with
  | nil => exact .nil
  | @blank c t u hc _ ih =>
      have hu := ih ht
      by_cases hend : Text.trimEnd u = []
      · rw [hend] at hu
        have hall : Text.trimEnd (c :: u) = [] := by
          rw [trimEnd_eq_nil_iff] at hend ⊢
          rw [allBlank, List.all_cons, hc, Bool.true_and]
          exact hend
        rwa [hall]
      · rw [← List.singleton_append, trimEnd_append hend]
        exact .blank hc hu
  | @keep c t u _ ih =>
      obtain ⟨hc, ht⟩ := List.forall_mem_cons.mp ht
      rw [trimEnd_cons hc]
      exact .keep (ih ht)

/-! ## Neighbours -/

/-- Blanks make no neighbours of what they part. -/
theorem isChain_of_withoutBlanks {R : Char → Char → Prop}
    (hblank : ∀ c d, isBlank c = true ∨ isBlank d = true → R c d) {t : Text}
    (h : (withoutBlanks t).IsChain R) : t.IsChain R := by
  induction t with
  | nil => exact List.IsChain.nil
  | cons c t ih =>
      rw [List.isChain_cons]
      cases hc : isBlank c with
      | true =>
          rw [withoutBlanks_cons_blank hc] at h
          exact ⟨fun d _ => hblank c d (.inl hc), ih h⟩
      | false =>
          rw [withoutBlanks_cons_full hc, List.isChain_cons] at h
          refine ⟨fun d hd => ?_, ih h.2⟩
          cases hb : isBlank d with
          | true => exact hblank c d (.inr hb)
          | false =>
              obtain ⟨rest, rfl⟩ : ∃ rest, t = d :: rest := by
                cases t with
                | nil => cases hd
                | cons e rest => exact ⟨rest, by rw [Option.some.inj hd]⟩
              exact h.1 d (by rw [withoutBlanks_cons_full hb]; rfl)

theorem isChain_join {R : Char → Char → Prop} {mark : Char}
    (hmark : ∀ c, R c mark ∧ R mark c) {pieces : List Text}
    (h : ∀ piece ∈ pieces, piece.IsChain R) : (join [mark] pieces).IsChain R := by
  induction pieces with
  | nil => exact List.IsChain.nil
  | cons piece pieces ih =>
      obtain ⟨hpiece, hpieces⟩ := List.forall_mem_cons.mp h
      cases pieces with
      | nil =>
          rw [join, List.intercalate_singleton]
          exact hpiece
      | cons next pieces =>
          rw [join, List.intercalate_cons_cons, List.append_assoc, List.isChain_append]
          refine ⟨hpiece, ?_, fun c _ d hd => ?_⟩
          · rw [List.singleton_append, List.isChain_cons]
            exact ⟨fun d _ => (hmark d).2, ih hpieces⟩
          · rw [← Option.some.inj hd]
            exact (hmark c).1

theorem fields_join {mark : Char} {pieces : List Text} (hne : pieces ≠ [])
    (h : ∀ piece ∈ pieces, mark ∉ piece) : fields mark (join [mark] pieces) = pieces := by
  induction pieces with
  | nil => exact absurd rfl hne
  | cons piece pieces ih =>
      obtain ⟨hpiece, hpieces⟩ := List.forall_mem_cons.mp h
      cases pieces with
      | nil => rw [join, List.intercalate_singleton, fields_of_not_mem hpiece]
      | cons next pieces =>
          rw [join, List.intercalate_cons_cons, List.append_assoc, List.singleton_append,
            fields_append, fields_of_not_mem hpiece, ← join, ih (List.cons_ne_nil _ _) hpieces]
          rfl

/-- Two characters do not stand next to each other, in that order. -/
theorem not_pair_infix_iff {a b : Char} {t : Text} :
    ¬ [a, b] <:+: t ↔ t.IsChain fun c d => ¬ (c = a ∧ d = b) := by
  rw [List.isChain_iff_forall_rel_of_append_cons_cons]
  constructor
  · rintro h c d before after rfl ⟨rfl, rfl⟩
    exact h ⟨before, after, by simp⟩
  · rintro h ⟨before, after, rfl⟩
    exact h (by simp : before ++ [a, b] ++ after = before ++ a :: b :: after) ⟨rfl, rfl⟩

theorem cut?_of_not_infix {mark t : Text} (hne : mark ≠ []) (h : ¬ mark <:+: t) :
    cut? mark t = none := by
  induction t with
  | nil => rw [cut?, if_neg (by simpa using hne)]
  | cons c t ih =>
      have hnone : after? mark (c :: t) = none :=
        after?_eq_none_iff.mpr fun hhead => h hhead.isInfix
      rw [cut?, hnone]
      simp only []
      rw [ih fun htail => h (htail.trans (List.suffix_cons c t).isInfix)]
      rfl

/-- A text is cut at the first pair of its characters that is looked for. -/
theorem cut?_pair {a b : Char} (hab : a ≠ b) {before : Text} (h : ¬ [a, b] <:+: before)
    (rest : Text) : cut? [a, b] (before ++ ([a, b] ++ rest)) = some (before, rest) := by
  induction before with
  | nil => simp [cut?, after?]
  | cons c before ih =>
      have hnone : after? [a, b] (c :: (before ++ ([a, b] ++ rest))) = none := by
        rw [after?_eq_none_iff]
        rintro ⟨tail, htail⟩
        rw [List.cons_append, List.cons.injEq] at htail
        cases before with
        | nil => exact hab (List.cons.inj htail.2).1.symm
        | cons d before =>
            rw [← htail.1, ← (List.cons.inj htail.2).1] at h
            exact h ⟨[], before, rfl⟩
      rw [List.cons_append, cut?, hnone]
      simp only []
      rw [ih fun htail => h (htail.trans (List.suffix_cons c before).isInfix)]
      rfl

theorem isChain_of_allBlank {R : Char → Char → Prop}
    (hblank : ∀ c d, isBlank c = true ∨ isBlank d = true → R c d) {t : Text}
    (h : allBlank t = true) : t.IsChain R := by
  refine isChain_of_withoutBlanks hblank ?_
  rw [withoutBlanks_eq_nil_iff.mpr h]
  exact List.IsChain.nil

theorem Padded.isChain {R : Char → Char → Prop}
    (hblank : ∀ c d, isBlank c = true ∨ isBlank d = true → R c d) {t u : Text}
    (h : Padded t u) (ht : t.IsChain R) : u.IsChain R := by
  obtain ⟨before, after, hbefore, hafter, rfl⟩ := h
  rw [List.isChain_append, List.isChain_append]
  refine ⟨⟨isChain_of_allBlank hblank hbefore, ht, fun c hc d _ => ?_⟩,
    isChain_of_allBlank hblank hafter, fun c _ d hd => ?_⟩
  · exact hblank c d (.inl (List.all_eq_true.mp hbefore c (List.mem_of_getLast? hc)))
  · exact hblank c d (.inr (List.all_eq_true.mp hafter d (List.mem_of_head? hd)))

end Text

namespace Expression

/-! ## The cuts -/

theorem operationHead?_eq_none {c : Char} {rest : Text}
    (h : Text.IsSign c → (Text.trimStart rest).head?.any Char.isDigit = false) :
    operationHead? (c :: rest) = none := by
  simp only [operationHead?]
  split
  · next hdigit =>
      have hsign : ¬ Text.IsSign c := fun hsign => by
        rw [h hsign] at hdigit
        cases hdigit
      rw [if_neg fun hc => hsign (.inl hc), if_neg fun hc => hsign (.inr hc)]
  · rfl

/-- No operation begins in a path in which no sign is followed by a digit. -/
theorem cutOperation_append {path : Text}
    (hpath : (Text.withoutBlanks path).IsChain fun c d =>
      ¬ (Text.IsSign c ∧ d.isDigit = true)) {tail : Text}
    (htail : (Text.trimStart tail).head?.any Char.isDigit = false) :
    cutOperation (path ++ tail) = (path ++ (cutOperation tail).1, (cutOperation tail).2) := by
  induction path with
  | nil => rfl
  | cons c path ih =>
      have hrest : (Text.withoutBlanks path).IsChain fun c d =>
          ¬ (Text.IsSign c ∧ d.isDigit = true) := by
        cases hc : Text.isBlank c with
        | true => rwa [Text.withoutBlanks_cons_blank hc] at hpath
        | false =>
            rw [Text.withoutBlanks_cons_full hc] at hpath
            exact hpath.tail
      have hnone : operationHead? (c :: (path ++ tail)) = none := by
        refine operationHead?_eq_none fun hsign => ?_
        have hc : Text.isBlank c = false := by rcases hsign with rfl | rfl <;> rfl
        rw [Text.withoutBlanks_cons_full hc, List.isChain_cons] at hpath
        rw [Text.head?_trimStart] at htail ⊢
        rw [Text.withoutBlanks_append]
        cases hfirst : Text.withoutBlanks path with
        | nil => exact htail
        | cons d rest =>
            have hdigit := hpath.1 d (by rw [hfirst]; rfl)
            simpa using fun hd => hdigit ⟨hsign, hd⟩
      rw [List.cons_append, cutOperation, hnone]
      simp only []
      rw [ih hrest]
      rfl

theorem IsOperation.operand_ne_nil {o : Operation} (ho : IsOperation o) : o.operand ≠ [] := by
  intro hnil
  have hnumber := ho.number
  rw [hnil] at hnumber
  cases hnumber

theorem cutOperation_operation {o : Operation} (ho : IsOperation o) {operand : Text}
    (h : Text.Padded o.operand operand) :
    cutOperation (o.operator.symbol :: operand) = ([], some o) := by
  have htrim := h.trim_eq ho.trimmed ho.operand_ne_nil
  obtain ⟨after, -, hstart⟩ := h.trimStart ho.trimmed ho.operand_ne_nil
  have hdigit : (Text.trimStart operand).head?.any Char.isDigit = true := by
    rw [hstart, List.head?_append_of_ne_nil _ ho.operand_ne_nil]
    exact ho.number
  have hhead : operationHead? (o.operator.symbol :: operand) = some (o.operator, operand) := by
    simp only [operationHead?, hdigit, if_true]
    rcases ho.operator with hop | hop <;> rw [hop] <;> rfl
  rw [cutOperation, hhead]
  simp only [htrim]

/-- Neither character of the mark is a blank. -/
theorem not_mark_of_blank (c d : Char) (h : Text.isBlank c = true ∨ Text.isBlank d = true) :
    ¬ (c = '=' ∧ d = '>') := by
  rintro ⟨rfl, rfl⟩
  exact absurd h (by decide)

theorem SpellsOperation.cases_sign {o? : Option Operation}
    (ho : ∀ o, o? = some o → IsOperation o) {operation : Text} (h : SpellsOperation o? operation) :
    operation = [] ∨ ∃ sign rest, Text.IsSign sign ∧ operation = sign :: rest := by
  cases h with
  | absent => exact .inl rfl
  | @written o operand h =>
      refine .inr ⟨_, _, ?_, rfl⟩
      rcases (ho o rfl).operator with hop | hop <;> rw [hop]
      · exact .inl rfl
      · exact .inr rfl

/-- What an operation begins with is no digit. -/
theorem SpellsOperation.head_not_digit {o? : Option Operation}
    (ho : ∀ o, o? = some o → IsOperation o) {operation : Text} (h : SpellsOperation o? operation) :
    (Text.trimStart operation).head?.any Char.isDigit = false := by
  rcases h.cases_sign ho with rfl | ⟨sign, rest, hsign, rfl⟩
  · rfl
  · rcases hsign with rfl | rfl <;> rfl

theorem SpellsOperation.formatless {o? : Option Operation}
    (ho : ∀ o, o? = some o → IsOperation o) {operation : Text} (h : SpellsOperation o? operation) :
    operation.IsChain fun c d => ¬ (c = '=' ∧ d = '>') := by
  cases h with
  | absent => exact List.IsChain.nil
  | @written o operand h =>
      rw [List.isChain_cons]
      refine ⟨?_, h.isChain not_mark_of_blank (Text.not_pair_infix_iff.mp (ho o rfl).formatless)⟩
      rintro d - ⟨hsign, -⟩
      rcases (ho o rfl).operator with hop | hop
      all_goals
        rw [hop] at hsign
        exact absurd hsign (by decide)

theorem SpellsOperation.trimEnd {o? : Option Operation} (ho : ∀ o, o? = some o → IsOperation o)
    {operation : Text} (h : SpellsOperation o? operation) (hne : operation ≠ []) :
    SpellsOperation o? (Text.trimEnd operation) ∧ Text.trimEnd operation ≠ [] := by
  cases h with
  | absent => exact absurd rfl hne
  | @written o operand h =>
      obtain ⟨hpadded, hkept⟩ := h.trimEnd (ho o rfl).trimmed (ho o rfl).operand_ne_nil
      rw [← List.singleton_append, Text.trimEnd_append hkept]
      exact ⟨.written hpadded, List.cons_ne_nil _ _⟩

theorem SpellsFormat.trimEnd {f? : Option Text}
    (hf : ∀ f, f? = some f → f ≠ [] ∧ Text.trim f = f) {format : Text} (h : SpellsFormat f? format)
    (hne : format ≠ []) :
    SpellsFormat f? (Text.trimEnd format) ∧ Text.trimEnd format ≠ [] := by
  cases h with
  | absent => exact absurd rfl hne
  | @written f format h =>
      obtain ⟨hpadded, hkept⟩ := h.trimEnd (hf f rfl).2 (hf f rfl).1
      rw [Text.trimEnd_append hkept]
      exact ⟨.written hpadded, List.cons_ne_nil _ _⟩

theorem SpellsOperation.cut {o? : Option Operation} (ho : ∀ o, o? = some o → IsOperation o)
    {operation : Text} (h : SpellsOperation o? operation) :
    cutOperation operation = ([], o?) := by
  cases h with
  | absent => rfl
  | written h => exact cutOperation_operation (ho _ rfl) h

theorem SpellsFormat.cut {f? : Option Text} (hf : ∀ f, f? = some f → f ≠ [] ∧ Text.trim f = f)
    {format main : Text} (h : SpellsFormat f? format) (hmain : ¬ formatMark <:+: main) :
    cutFormat (main ++ format) = (main, f?) := by
  cases h with
  | absent =>
      have hcut : Text.cut? formatMark main = none :=
        Text.cut?_of_not_infix (List.cons_ne_nil _ _) hmain
      rw [List.append_nil, cutFormat, hcut]
  | @written f format h =>
      obtain ⟨hne, htrim⟩ := hf f rfl
      have hcut : Text.cut? formatMark (main ++ (formatMark ++ format)) = some (main, format) :=
        Text.cut?_pair (by decide) hmain format
      rw [cutFormat, hcut]
      simp only [h.trim_eq htrim hne]
      rw [if_neg fun hnil => hne (List.isEmpty_iff.mp hnil)]

namespace Parts

variable {p : Parts} {text : Text}

theorem Sound.join_full (hp : p.Sound) :
    ∀ c ∈ Text.join [segmentMark] p.segments, Text.isBlank c = false := by
  intro c hc
  rcases Text.mem_join hc with hmark | ⟨s, hs, hc⟩
  · rw [List.mem_singleton.mp hmark]
    rfl
  · exact (hp.segments s hs).full c hc

theorem Sound.withoutBlanks_path (hp : p.Sound) {path : Text}
    (hpath : Text.Spread (Text.join [segmentMark] p.segments) path) :
    Text.withoutBlanks path = Text.join [segmentMark] p.segments := by
  rw [hpath.withoutBlanks_eq]
  exact Text.withoutBlanks_eq_self_iff.mpr hp.join_full

theorem Sound.join_ne_nil (hp : p.Sound) : Text.join [segmentMark] p.segments ≠ [] := by
  obtain ⟨first, rest, hsegments, hne⟩ := hp.begun
  rw [hsegments]
  cases rest with
  | nil =>
      rw [Text.join, List.intercalate_singleton]
      exact hne
  | cons next rest =>
      rw [Text.join, List.intercalate_cons_cons, List.append_assoc]
      exact List.append_ne_nil_of_left_ne_nil hne _

theorem Sound.segmentsOf_path (hp : p.Sound) {path : Text}
    (hpath : Text.Spread (Text.join [segmentMark] p.segments) path) :
    segmentsOf path = p.segments := by
  have hne : p.segments ≠ [] := by
    obtain ⟨first, rest, hsegments, -⟩ := hp.begun
    rw [hsegments]
    exact List.cons_ne_nil _ _
  show Text.fields segmentMark (Text.withoutBlanks path) = _
  rw [hp.withoutBlanks_path hpath]
  exact Text.fields_join hne fun s hs => (hp.segments s hs).unmarked

/-- No sign is followed by a digit in a path. -/
theorem Sound.signless (hp : p.Sound) {path : Text}
    (hpath : Text.Spread (Text.join [segmentMark] p.segments) path) :
    (Text.withoutBlanks path).IsChain fun c d => ¬ (Text.IsSign c ∧ d.isDigit = true) := by
  rw [hp.withoutBlanks_path hpath]
  refine Text.isChain_join (fun c => ⟨?_, ?_⟩) fun s hs => (hp.segments s hs).signless
  · rintro ⟨-, hdigit⟩
    exact absurd hdigit (by decide)
  · rintro ⟨hsign, -⟩
    exact absurd hsign (by decide)

/-- No format begins before its mark. -/
theorem Sound.formatless (hp : p.Sound) {path operation : Text}
    (hpath : Text.Spread (Text.join [segmentMark] p.segments) path)
    (hoperation : SpellsOperation p.operation operation) :
    ¬ formatMark <:+: path ++ operation := by
  have hjoin : (Text.join [segmentMark] p.segments).IsChain fun c d => ¬ (c = '=' ∧ d = '>') := by
    refine Text.isChain_join (fun c => ⟨?_, ?_⟩) fun s hs =>
      Text.not_pair_infix_iff.mp (hp.segments s hs).formatless
    · rintro ⟨-, hmark⟩
      exact absurd hmark (by decide)
    · rintro ⟨hmark, -⟩
      exact absurd hmark (by decide)
  rw [formatMark, Text.not_pair_infix_iff, List.isChain_append]
  refine ⟨?_, hoperation.formatless hp.operation, ?_⟩
  · exact Text.isChain_of_withoutBlanks not_mark_of_blank (by rwa [hp.withoutBlanks_path hpath])
  · rintro c - d hd ⟨-, rfl⟩
    rcases hoperation.cases_sign hp.operation with rfl | ⟨sign, rest, hsign, rfl⟩
    · cases hd
    · rw [List.head?_cons, Option.mem_some_iff] at hd
      rw [hd] at hsign
      exact absurd hsign (by decide)

/-- Blanks at the ends make no difference. -/
theorem Spells.trim (hp : p.Sound) (h : p.Spells text) : p.Spells (Text.trim text) := by
  obtain @⟨path, operation, format, hpath, hoperation, hformat⟩ := h
  have hstarted := hpath.trimStart hp.join_full
  have hstart : Text.trimStart path ≠ [] := by
    intro hnil
    rw [hnil] at hstarted
    exact hp.join_ne_nil (hp.withoutBlanks_path hstarted).symm
  rw [Text.trim, Text.trimStart_append hstart]
  by_cases hnoformat : format = []
  · subst hnoformat
    by_cases hnooperation : operation = []
    · subst hnooperation
      have htrimmed := Spells.intro (hstarted.trimEnd hp.join_full) hoperation hformat
      rwa [List.append_nil, List.append_nil] at htrimmed ⊢
    · obtain ⟨hended, hkept⟩ := hoperation.trimEnd hp.operation hnooperation
      have htrimmed := Spells.intro hstarted hended hformat
      rw [List.append_nil] at htrimmed ⊢
      rwa [Text.trimEnd_append hkept]
  · obtain ⟨htrimmed, hkept⟩ := hformat.trimEnd hp.format hnoformat
    rw [← List.append_assoc, Text.trimEnd_append hkept, List.append_assoc]
    exact .intro hstarted hoperation htrimmed

theorem Spells.cuts (hp : p.Sound) (h : p.Spells text) :
    text ≠ [] ∧ ∃ main path, cutFormat text = (main, p.format) ∧
      cutOperation main = (path, p.operation) ∧ segmentsOf path = p.segments := by
  obtain @⟨path, operation, format, hpath, hoperation, hformat⟩ := h
  have hne : path ≠ [] := by
    rintro rfl
    exact hp.join_ne_nil (hp.withoutBlanks_path hpath).symm
  refine ⟨List.append_ne_nil_of_left_ne_nil hne _, path ++ operation, path, ?_, ?_,
    hp.segmentsOf_path hpath⟩
  · rw [← List.append_assoc]
    exact hformat.cut hp.format (hp.formatless hpath hoperation)
  · rw [cutOperation_append (hp.signless hpath) (hoperation.head_not_digit hp.operation),
      hoperation.cut hp.operation, List.append_nil]

end Parts

/-- An expression that was spelled from parts has these parts. -/
theorem parse_spelled {p : Parts} (hp : p.Sound) {text : Text} (h : p.Spells text) :
    parse text = .ok {
      text := Text.trim text
      tag := Text.lower (p.segments.headD [])
      segments := p.segments
      operation := p.operation
      format := p.format } := by
  obtain ⟨hne, main, path, hformat, hoperation, hsegments⟩ := (h.trim hp).cuts hp
  rw [parse]
  simp only []
  rw [if_neg fun hnil => hne (List.isEmpty_iff.mp hnil), hformat]
  simp only [hoperation, hsegments]

/-- Hyphens in a word and before the operation, a sign in the operand, a mark
and a sign in the format, and blanks in every place. -/
theorem parse_spelled_hyphens_and_marks :
    let p : Parts := {
      segments := ["$Date_Time".toList, "week-day=-".toList]
      operation := some ⟨.sub, "3 d + 2=".toList⟩
      format := some "=> yyyy-1".toList }
    let text := " $Date _Time. week- day=- - \t3 d + 2==> => yyyy-1\n".toList
    p.Sound ∧ p.Spells text ∧
      parse text = .ok {
        text := Text.trim text
        tag := "$date_time".toList
        segments := p.segments
        operation := p.operation
        format := p.format } := by
  intro p text
  have hp : p.Sound := {
    begun := ⟨_, _, rfl, by decide +kernel⟩
    segments := by
      intro s hs
      rcases List.mem_pair.mp hs with rfl | rfl
      all_goals exact ⟨Text.withoutBlanks_eq_self_iff.mp (by decide +kernel),
        by decide +kernel, by decide +kernel, by decide +kernel⟩
    operation := by
      intro o ho
      cases ho
      exact ⟨.inr rfl, by decide +kernel, by decide +kernel, by decide +kernel⟩
    format := by
      intro f hf
      cases hf
      exact ⟨by decide +kernel, by decide +kernel⟩ }
  have hpath : Text.Spread (Text.join [segmentMark] p.segments)
      " $Date _Time. week- day=- ".toList :=
    (by decide +kernel : Text.withoutBlanks " $Date _Time. week- day=- ".toList =
      Text.join [segmentMark] p.segments) ▸ Text.spread_withoutBlanks _
  have hoperand : Text.Padded "3 d + 2=".toList " \t3 d + 2=".toList :=
    ⟨" \t".toList, [], by decide +kernel, rfl, by decide +kernel⟩
  have hformat : Text.Padded "=> yyyy-1".toList " => yyyy-1\n".toList :=
    ⟨[' '], ['\n'], by decide, by decide, by decide +kernel⟩
  have h : p.Spells text :=
    (by decide +kernel : " $Date _Time. week- day=- ".toList ++
      ('-' :: " \t3 d + 2=".toList ++ (formatMark ++ " => yyyy-1\n".toList)) = text) ▸
      .intro hpath (.written hoperand) (.written hformat)
  have htag : Text.lower (p.segments.headD []) = "$date_time".toList := by decide +kernel
  exact ⟨hp, h, htag ▸ parse_spelled hp h⟩

end Expression

end RequestBook
