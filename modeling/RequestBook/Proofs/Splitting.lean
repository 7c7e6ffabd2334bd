import RequestBook.Proofs.Trim
import RequestBook.Request.Line
import RequestBook.Text.Lines

/-!
# Splitting gives back what was put together

Lines that were ended and pieces that were joined come back as they were when
none of them holds the character they are split at. The words of a request
line are the one splitter that forgets something, the empty pieces; a url
without two spaces in a row and without a blank at either end has none, so
nothing of it is lost.
-/

namespace RequestBook

namespace Text

/-! ## Lines -/

/-- Text that stands on one line. -/
def OneLine (t : Text) : Prop := '\r' ∉ t ∧ '\n' ∉ t

instance (t : Text) : Decidable (OneLine t) := inferInstanceAs (Decidable (_ ∧ _))

theorem oneLine_append {s t : Text} : OneLine (s ++ t) ↔ OneLine s ∧ OneLine t := by
  simp only [OneLine, List.mem_append, not_or]
  tauto

theorem oneLine_cons {c : Char} {t : Text} : OneLine (c :: t) ↔ OneLine [c] ∧ OneLine t :=
  oneLine_append (s := [c])

theorem splitLines_append {line : Text} (hline : OneLine line) (before rest : Text) :
    splitLines before (line ++ rest) = splitLines (line.reverse ++ before) rest := by
  induction line generalizing before with
  | nil => rfl
  | cons c line ih =>
      have hcr : c ≠ '\r' := (List.ne_of_not_mem_cons hline.1).symm
      have hlf : c ≠ '\n' := (List.ne_of_not_mem_cons hline.2).symm
      have hrest : OneLine line :=
        ⟨List.not_mem_of_not_mem_cons hline.1, List.not_mem_of_not_mem_cons hline.2⟩
      rw [List.cons_append, splitLines, if_neg (by simp [hcr, hlf]), ih hrest,
        List.reverse_cons, List.append_assoc, List.singleton_append]
      exact fun _ hc => absurd hc hcr

theorem splitLines_feed (before rest : Text) :
    splitLines before ('\n' :: rest) = before.reverse :: splitLines [] rest := by
  cases rest <;> rfl

/-- The text in which each line ends with a line feed. -/
def ofLines (lines : List Text) : Text := lines.flatMap (· ++ ['\n'])

theorem ofLines_cons (line : Text) (lines : List Text) :
    ofLines (line :: lines) = line ++ '\n' :: ofLines lines := by
  rw [ofLines, List.flatMap_cons, List.append_assoc, List.singleton_append]
  rfl

theorem ofLines_append (lines more : List Text) :
    ofLines (lines ++ more) = ofLines lines ++ ofLines more := List.flatMap_append

theorem ofLines_singleton (line : Text) : ofLines [line] = line ++ ['\n'] :=
  List.flatMap_singleton _ line

/-- The last line ends with a line feed as well. -/
theorem ofLines_eq_join {lines : List Text} (hne : lines ≠ []) :
    ofLines lines = join ['\n'] lines ++ ['\n'] := by
  induction lines with
  | nil => exact absurd rfl hne
  | cons line lines ih =>
      cases lines with
      | nil => rw [ofLines_singleton, join, List.intercalate_singleton]
      | cons next lines =>
          rw [ofLines_cons, ih (List.cons_ne_nil _ _), join, join, List.intercalate_cons_cons,
            List.append_assoc, List.append_assoc]
          rfl

theorem splitLines_ofLines {lines : List Text} (h : ∀ line ∈ lines, OneLine line) :
    splitLines [] (ofLines lines) = lines := by
  induction lines with
  | nil => rfl
  | cons line lines ih =>
      obtain ⟨hline, hlines⟩ := List.forall_mem_cons.mp h
      rw [ofLines_cons, splitLines_append hline, splitLines_feed, ih hlines, List.append_nil,
        List.reverse_reverse]

/-- A text that does not begin with the byte order mark is what its lines say. -/
theorem documentLines_ofLines {lines : List Text} (h : ∀ line ∈ lines, OneLine line)
    (hmark : (ofLines lines).head? ≠ some byteOrderMark) :
    documentLines (ofLines lines) = lines := by
  have hwhole : withoutMark (ofLines lines) = ofLines lines := by
    cases ht : ofLines lines with
    | nil => rfl
    | cons c t =>
        rw [ht, List.head?_cons, ne_eq, Option.some.injEq] at hmark
        rw [withoutMark, if_neg hmark]
  rw [documentLines, hwhole, splitLines_ofLines h]

/-! ## Pieces -/

section Fields

variable {sep : Char}

theorem fields_ne_nil (t : Text) : fields sep t ≠ [] := by
  cases t with
  | nil => exact List.cons_ne_nil _ _
  | cons c t =>
      rw [fields]
      split
      · exact List.cons_ne_nil _ _
      · split <;> exact List.cons_ne_nil _ _

theorem fields_cons_self (t : Text) : fields sep (sep :: t) = [] :: fields sep t := by
  rw [fields, if_pos rfl]

theorem fields_cons_of_ne {c : Char} (hc : c ≠ sep) (t : Text) :
    fields sep (c :: t) = (c :: (fields sep t).headD []) :: (fields sep t).tail := by
  rw [fields, if_neg hc]
  cases h : fields sep t with
  | nil => exact absurd h (fields_ne_nil t)
  | cons piece pieces => rfl

/-- What stands before the first separator belongs to the first piece. -/
theorem fields_append_of_not_mem {s : Text} (h : sep ∉ s) (t : Text) :
    fields sep (s ++ t) = (s ++ (fields sep t).headD []) :: (fields sep t).tail := by
  induction s with
  | nil =>
      cases hf : fields sep t with
      | nil => exact absurd hf (fields_ne_nil t)
      | cons piece pieces => rw [List.nil_append, hf]; rfl
  | cons c s ih =>
      rw [List.cons_append, fields_cons_of_ne (List.ne_of_not_mem_cons h).symm,
        ih (List.not_mem_of_not_mem_cons h)]
      rfl

theorem fields_of_not_mem {t : Text} (h : sep ∉ t) : fields sep t = [t] := by
  have hwhole := fields_append_of_not_mem h []
  rw [List.append_nil] at hwhole
  rw [hwhole, fields, List.headD_cons, List.tail_cons, List.append_nil]

theorem fields_append (s t : Text) :
    fields sep (s ++ sep :: t) = fields sep s ++ fields sep t := by
  induction s with
  | nil => exact fields_cons_self t
  | cons c s ih =>
      by_cases hc : c = sep
      · rw [hc, List.cons_append, fields_cons_self, fields_cons_self, ih, List.cons_append]
      · rw [List.cons_append, fields_cons_of_ne hc, fields_cons_of_ne hc, ih]
        cases h : fields sep s with
        | nil => exact absurd h (fields_ne_nil s)
        | cons piece pieces => rfl

theorem join_fields (t : Text) : join [sep] (fields sep t) = t := by
  induction t with
  | nil => rfl
  | cons c t ih =>
      cases h : fields sep t with
      | nil => exact absurd h (fields_ne_nil t)
      | cons piece pieces =>
          rw [h] at ih
          by_cases hc : c = sep
          · rw [hc, fields_cons_self, h, join, List.intercalate_cons_cons, ← join, ih]
            rfl
          · rw [fields_cons_of_ne hc, h, List.headD_cons, List.tail_cons]
            cases pieces with
            | nil =>
                rw [← ih]
                rfl
            | cons next pieces =>
                rw [join, List.intercalate_cons_cons] at ih ⊢
                rw [← ih]
                rfl

theorem ofLines_fields (t : Text) : ofLines (fields '\n' t) = t ++ ['\n'] := by
  rw [ofLines_eq_join (fields_ne_nil t), join_fields]

/-- A piece has no separator and nothing that the text does not have. -/
theorem mem_fields {t piece : Text} (h : piece ∈ fields sep t) : sep ∉ piece ∧ piece ⊆ t := by
  induction t generalizing piece with
  | nil =>
      rw [List.mem_singleton.mp h]
      exact ⟨List.not_mem_nil, List.nil_subset _⟩
  | cons c t ih =>
      by_cases hc : c = sep
      · rw [hc, fields_cons_self] at h
        rcases List.mem_cons.mp h with rfl | h
        · exact ⟨List.not_mem_nil, List.nil_subset _⟩
        · exact ⟨(ih h).1, List.subset_cons_of_subset _ (ih h).2⟩
      · rw [fields_cons_of_ne hc] at h
        rcases List.mem_cons.mp h with rfl | h
        · have hfirst : (fields sep t).headD [] ∈ fields sep t := by
            cases hf : fields sep t with
            | nil => exact absurd hf (fields_ne_nil t)
            | cons first pieces => exact List.mem_cons_self
          refine ⟨fun hmem => ?_, List.cons_subset_cons _ (ih hfirst).2⟩
          rcases List.mem_cons.mp hmem with heq | hmem
          · exact hc heq.symm
          · exact (ih hfirst).1 hmem
        · have hlater := ih (List.mem_of_mem_tail h)
          exact ⟨hlater.1, List.subset_cons_of_subset _ hlater.2⟩

/-- Only the first and the last piece can be empty without two separators in
a row. -/
theorem nil_mem_tail_fields {t : Text} (h : [] ∈ (fields sep t).tail) :
    t.getLast? = some sep ∨ [sep, sep] <:+: t := by
  induction t with
  | nil => cases h
  | cons c t ih =>
      have hlater : [] ∈ (fields sep t).tail →
          (c :: t).getLast? = some sep ∨ [sep, sep] <:+: c :: t := by
        intro hmem
        rcases ih hmem with hlast | hpair
        · exact .inl (by rw [List.getLast?_cons, hlast]; rfl)
        · exact .inr (hpair.trans (List.suffix_cons c t).isInfix)
      by_cases hc : c = sep
      · subst hc
        rw [fields_cons_self, List.tail_cons] at h
        cases t with
        | nil => exact .inl rfl
        | cons d t =>
            by_cases hd : d = c
            · subst hd
              exact .inr ⟨[], t, rfl⟩
            · rw [fields_cons_of_ne hd] at h
              refine hlater ?_
              rw [fields_cons_of_ne hd, List.tail_cons]
              exact (List.mem_cons.mp h).resolve_left (List.cons_ne_nil _ _).symm
      · rw [fields_cons_of_ne hc, List.tail_cons] at h
        exact hlater h

end Fields

theorem mem_join {sep : Text} {pieces : List Text} {c : Char} (h : c ∈ join sep pieces) :
    c ∈ sep ∨ ∃ piece ∈ pieces, c ∈ piece := by
  induction pieces with
  | nil => cases h
  | cons piece pieces ih =>
      cases pieces with
      | nil =>
          rw [join, List.intercalate_singleton] at h
          exact .inr ⟨piece, List.mem_cons_self, h⟩
      | cons next pieces =>
          rw [join, List.intercalate_cons_cons, List.mem_append, List.mem_append] at h
          rcases h with (h | h) | h
          · exact .inr ⟨piece, List.mem_cons_self, h⟩
          · exact .inl h
          · obtain hsep | ⟨later, hlater, hc⟩ := ih h
            · exact .inl hsep
            · exact .inr ⟨later, List.mem_cons_of_mem _ hlater, hc⟩

end Text

/-! ## Request lines -/

namespace RequestLine

variable {method url version : Text}

theorem words_append (s t : Text) : words (s ++ ' ' :: t) = words s ++ words t := by
  rw [words, Text.fields_append, List.filter_append]
  rfl

theorem words_of_not_mem {word : Text} (h : ' ' ∉ word) (hne : word ≠ []) :
    words word = [word] := by
  rw [words, Text.fields_of_not_mem h, List.filter_cons_of_pos (by simpa using hne)]
  rfl

theorem words_of_tidy (htrim : Text.trim url = url) (hne : url ≠ [])
    (hpair : ¬ [' ', ' '] <:+: url) : words url = Text.fields ' ' url := by
  refine List.filter_eq_self.mpr fun word hword => ?_
  rw [Bool.not_eq_true', List.isEmpty_eq_false_iff]
  rintro rfl
  have hblank : Text.isBlank ' ' ≠ false := by decide
  cases url with
  | nil => exact hne rfl
  | cons c t =>
      have hc : c ≠ ' ' := by
        rintro rfl
        exact hblank (Text.trimStart_eq_self_iff.mp (Text.trimStart_of_trim htrim) _ rfl)
      rw [Text.fields_cons_of_ne hc] at hword
      have htail : [] ∈ (Text.fields ' ' (c :: t)).tail := by
        rw [Text.fields_cons_of_ne hc]
        exact (List.mem_cons.mp hword).resolve_left (List.cons_ne_nil _ _).symm
      rcases Text.nil_mem_tail_fields htail with hlast | hinside
      · exact hblank (Text.trimEnd_eq_self_iff.mp (Text.trimEnd_of_trim htrim) _ hlast)
      · exact hpair hinside

/-- A request line says what it was put together from. The version alone comes
back in capitals. -/
theorem read?_of_tidy (hmethod : ' ' ∉ method) (hnamed : method ≠ [])
    (hweb : Request.webScheme <+: url) (htrim : Text.trim url = url)
    (hpair : ¬ [' ', ' '] <:+: url) (hversion : isVersion version = true)
    (hword : ' ' ∉ version) :
    read? (method ++ ' ' :: (url ++ ' ' :: version)) =
      some ⟨method, url, Text.upper version⟩ := by
  obtain ⟨path, hpath⟩ := hweb
  have hne : url ≠ [] := by
    rw [← hpath]
    exact List.append_ne_nil_of_left_ne_nil (by decide) _
  have hsome : version ≠ [] := by
    rintro rfl
    exact absurd hversion (by decide)
  have hfields : Text.fields ' ' url = (Request.webScheme ++ (Text.fields ' ' path).headD []) ::
      (Text.fields ' ' path).tail := by
    rw [← hpath, Text.fields_append_of_not_mem (by decide)]
  have hurl : urlOf (Text.fields ' ' url) = url := by
    rw [urlOf, Text.join_fields, htrim]
  rw [read?, words_append, words_append, words_of_not_mem hmethod hnamed,
    words_of_tidy htrim hne hpair, words_of_not_mem hword hsome, hfields]
  rw [hfields] at hurl
  have hstart : Text.startsWith Request.webScheme
      (Request.webScheme ++ (Text.fields ' ' path).headD []) = true :=
    Text.startsWith_iff.mpr (List.prefix_append _ _)
  simp only [List.cons_append, List.nil_append, hstart, Bool.not_true, Bool.false_eq_true,
    if_false, List.getLast?_concat, hversion, if_true, List.dropLast_concat, hurl]

end RequestLine

end RequestBook
