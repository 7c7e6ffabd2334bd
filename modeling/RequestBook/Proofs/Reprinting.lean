import RequestBook.Proofs.Authoring
import RequestBook.Proofs.Labelling
import RequestBook.Proofs.Spelling

/-!
# Blocks that are written out are read again

A block of a document, written out on its own, is read as one block of the same
kind with the same text, unless its text runs into one of three rules
(`readsBack_iff`): a quoted line loses the blanks at its end, and a paragraph
may begin with what opens a fence, or with the mark that is passed over at the
head of a document.

The lines a block was built from are gone by then, and its text is read under
other rules than it was made by. So what is known of the text is said first,
kind by kind (`Block.Kind.Fits`): it stands on one line, except between fences,
where no line closes them; a title and the word behind a fence have no blanks
at their ends; and a paragraph begins with no mark of a heading or a quote,
whatever the lines joined to it begin with.
-/

namespace RequestBook

/-! ## The text of a block -/

namespace Text

theorem OneLine.of_subset {s t : Text} (h : OneLine t) (hsub : s ⊆ t) : OneLine s :=
  ⟨fun hmem => h.1 (hsub hmem), fun hmem => h.2 (hsub hmem)⟩

theorem oneLine_join {separator : Text} {pieces : List Text} (hsep : OneLine separator)
    (hpieces : ∀ piece ∈ pieces, OneLine piece) : OneLine (join separator pieces) := by
  rw [oneLine_iff]
  intro c hc
  rcases mem_join hc with hc | ⟨piece, hpiece, hc⟩
  · exact oneLine_iff.mp hsep c hc
  · exact oneLine_iff.mp (hpieces piece hpiece) c hc

theorem trimEnd_subset (t : Text) : trimEnd t ⊆ t :=
  (List.rdropWhile_prefix isBlank t).subset

theorem trim_subset (t : Text) : trim t ⊆ t := (trim_infix_self t).subset

/-- A text keeps its end when its last character is no blank. -/
theorem trimEnd_eq_self_iff_any {t : Text} :
    trimEnd t = t ↔ t.getLast?.any isBlank = false := by
  rw [trimEnd_eq_self_iff]
  cases t.getLast? <;> simp

theorem trimEnd_of_suffix {s t : Text} (h : s <:+ t) (ht : trimEnd t = t) : trimEnd s = s := by
  obtain ⟨before, rfl⟩ := h
  rw [trimEnd_eq_self_iff] at ht ⊢
  intro c hc
  exact ht c (by rw [List.getLast?_append, hc]; rfl)

/-- The end of a trimmed text is trimmed as soon as its head is. -/
theorem trim_trimStart_of_suffix {s t : Text} (h : s <:+ trim t) :
    trim (trimStart s) = trimStart s := by
  have hstart : trimStart (trimStart s) = trimStart s := List.dropWhile_idempotent isBlank s
  rw [trim, hstart]
  exact trimEnd_of_suffix ((List.dropWhile_suffix isBlank).trans h) (trimEnd_of_trim (trim_trim t))

theorem oneLine_of_mem_documentLines {t line : Text} (h : line ∈ documentLines t) :
    OneLine line := by
  rw [documentLines, splitLines_eq_map] at h
  obtain ⟨piece, -, rfl⟩ := List.mem_map.mp h
  exact oneLine_iff.mpr fun c hc => List.mem_takeWhile_imp (p := fun c => !isEnd c) hc

end Text

/-- The texts that the blocks of a kind have. -/
inductive Block.Kind.Fits : Block.Kind → Text → Prop
  | heading {level : Nat} {title : Text} (hlevel : 0 < level) (hline : Text.OneLine title)
      (htrim : Text.trim title = title) : Fits (.heading level 1) title
  | quote {t : Text} (hline : Text.OneLine t) : Fits .quote t
  | fence {lang body : Text} (hline : Text.OneLine lang) (htrim : Text.trim lang = lang)
      (hbody : Fenceable body) : Fits (.fence lang) body
  | paragraph {t : Text} (hline : Text.OneLine t) (htrim : Text.trim t = t) (hsome : t ≠ [])
      (hheading : Shape.of t ≠ .heading) (hquote : Shape.of t ≠ .quote) : Fits .paragraph t

section Lines

variable {first : Text} {rest : List Text}

theorem fits_heading (hshape : Shape.of first = .heading) (hline : Text.OneLine first) :
    (kindFrom first).Fits (contentFrom [first]) := by
  obtain ⟨rest, hrest⟩ : [headingMark] <+: Text.trim first := by
    rw [← Text.startsWith_iff, Text.startsWith_trim headingMark_full, Text.startsWith_iff]
    exact Shape.of_eq_heading_iff.mp hshape
  have hlevel : 0 < ((Text.trim first).takeWhile (· = headingMark)).length := by
    rw [← hrest]
    simp
  have hsuffix : (Text.trim first).dropWhile (· = headingMark) <:+ Text.trim first :=
    List.dropWhile_suffix _
  simp only [kindFrom, contentFrom, hshape]
  refine .heading hlevel (hline.of_subset ?_) (Text.trim_trimStart_of_suffix hsuffix)
  exact List.Subset.trans ((List.dropWhile_suffix _).trans hsuffix).subset (Text.trim_subset first)

theorem quotedText_subset (line : Text) : quotedText line ⊆ line := by
  have hrest : (Text.trimStart line).drop 1 ⊆ line :=
    ((List.drop_suffix _ _).trans (List.dropWhile_suffix _)).subset
  refine List.Subset.trans (Text.trimEnd_subset _) ?_
  split
  · exact List.Subset.trans (List.drop_subset _ _) hrest
  · exact hrest

theorem fits_quote (hshape : Shape.of first = .quote)
    (hlines : ∀ line ∈ first :: rest, Text.OneLine line) :
    (kindFrom first).Fits (contentFrom (first :: rest)) := by
  simp only [kindFrom, contentFrom, hshape, ← List.map_cons]
  refine .quote (Text.oneLine_join (by decide) fun piece hpiece => ?_)
  obtain ⟨line, hline, rfl⟩ := List.mem_map.mp hpiece
  exact (hlines line hline).of_subset (quotedText_subset line)

/-- What stood between fences can stand there again. -/
theorem fenceable_join {body : List Text} (hlines : ∀ line ∈ body, Text.OneLine line)
    (hends : ∀ line ∈ body, isFenceEnd line = false) : Fenceable (Text.join ['\n'] body) where
  no_return hret := by
    rcases Text.mem_join hret with hfeed | ⟨line, hline, hc⟩
    · exact absurd hfeed (by decide)
    · exact (hlines line hline).1 hc
  no_end line hline := by
    cases body with
    | nil =>
        rw [List.mem_singleton.mp hline]
        decide
    | cons next body =>
        rw [Text.fields_join (List.cons_ne_nil _ _) fun l hl => (hlines l hl).2] at hline
        exact ne_of_beq_false (hends line hline)

theorem fits_fence {body : List Text} {closing : Text} (hshape : Shape.of first = .fence)
    (hlines : ∀ line ∈ first :: (body ++ [closing]), Text.OneLine line)
    (hends : ∀ line ∈ body, isFenceEnd line = false) :
    (kindFrom first).Fits (contentFrom (first :: (body ++ [closing]))) := by
  obtain ⟨hfirst, hrest⟩ := List.forall_mem_cons.mp hlines
  simp only [kindFrom, contentFrom, hshape, List.dropLast_concat]
  refine .fence (hfirst.of_subset ?_) (Text.trim_trim _)
    (fenceable_join (List.forall_mem_append.mp hrest).1 hends)
  exact List.Subset.trans (Text.trim_subset _)
    (List.Subset.trans (List.drop_subset _ _) (Text.trim_subset first))

/-- A paragraph begins as its first line does. -/
theorem fits_paragraph (hshape : Shape.of first = .paragraph) (hfull : Text.allBlank first = false)
    (hlines : ∀ line ∈ first :: rest, Text.OneLine line) :
    (kindFrom first).Fits (contentFrom (first :: rest)) := by
  obtain ⟨c, t, hc, hstart⟩ := (Text.trimStart_cases first).resolve_left fun hnil => by
    rw [Text.trimStart_eq_nil_iff, hfull] at hnil
    cases hnil
  have htrim : Text.trim (first ++ rest.flatten) = c :: Text.trimEnd (t ++ rest.flatten) := by
    have hne : Text.trimStart first ≠ [] := by
      rw [hstart]
      exact List.cons_ne_nil _ _
    rw [Text.trim, Text.trimStart_append hne, hstart, List.cons_append, Text.trimEnd_cons hc]
  have hbegins : ∀ mark : Char, ¬ [mark] <+: Text.trimStart first →
      ¬ [mark] <+: Text.trimStart (Text.trim (first ++ rest.flatten)) := by
    intro mark hno
    rw [Text.trimStart_trim, htrim, List.cons_prefix_cons]
    rw [hstart, List.cons_prefix_cons] at hno
    exact fun h => hno ⟨h.1, List.nil_prefix⟩
  simp only [kindFrom, contentFrom, hshape]
  refine .paragraph (Text.oneLine_iff.mpr fun d hd => ?_) (Text.trim_trim _) ?_ ?_ ?_
  · have hmem : d ∈ (first :: rest).flatten := Text.trim_subset _ hd
    obtain ⟨line, hline, hd⟩ := List.mem_flatten.mp hmem
    exact Text.oneLine_iff.mp (hlines line hline) d hd
  · rw [htrim]
    exact List.cons_ne_nil _ _
  · rw [Ne, Shape.of_eq_heading_iff]
    refine hbegins headingMark fun h => ?_
    rw [← Shape.of_eq_heading_iff, hshape] at h
    cases h
  · rw [Ne, Shape.of_eq_quote_iff]
    refine hbegins quoteMark fun h => ?_
    rw [← Shape.of_eq_quote_iff, hshape] at h
    cases h

/-- The lines behind the first one of a fence: some that do not close it, and
one more. -/
theorem exists_fenceBody
    (h : (rest.takeWhile fun line => !isFenceEnd line).length < rest.length) :
    ∃ body closing,
      rest.take ((rest.takeWhile fun line => !isFenceEnd line).length + 1) = body ++ [closing] ∧
        ∀ line ∈ body, isFenceEnd line = false := by
  refine ⟨rest.takeWhile fun line => !isFenceEnd line, rest.get ⟨_, h⟩, ?_,
    fun line hline => ?_⟩
  · rw [List.get_eq_getElem, ← List.take_append_getElem h, take_length_takeWhile]
  · simpa using List.mem_takeWhile_imp hline

/-- The lines that a block takes make a text that fits its kind. -/
theorem fits_of_extent? {count : Nat} (hfull : Text.allBlank first = false)
    (hlines : ∀ line ∈ first :: rest, Text.OneLine line)
    (hextent : extent? (first :: rest) = some count) :
    (kindFrom (((first :: rest).take count).headD [])).Fits
      (contentFrom ((first :: rest).take count)) := by
  have htaken : ∀ n, ∀ line ∈ first :: rest.take n, Text.OneLine line := fun n line hline =>
    hlines line (List.mem_of_mem_take (i := n + 1) hline)
  simp only [extent?] at hextent
  split at hextent
  · next hshape =>
      cases hextent
      exact fits_heading hshape (hlines first List.mem_cons_self)
  · next hshape =>
      cases hextent
      exact fits_quote hshape (htaken _)
  · next hshape =>
      split at hextent
      · next hclosed =>
          cases hextent
          obtain ⟨body, closing, htake, hends⟩ := exists_fenceBody hclosed
          have hthese := htaken ((rest.takeWhile fun line => !isFenceEnd line).length + 1)
          rw [htake] at hthese
          rw [List.take_succ_cons, htake]
          exact fits_fence hshape hthese hends
      · cases hextent
  · next hshape =>
      cases hextent
      exact fits_paragraph hshape hfull (htaken _)

end Lines

/-- A block of a document takes lines from a place on where the first one is not
blank. -/
theorem exists_left_of_mem {lines : List Text} {b : Block}
    (hb : b ∈ (Grammar.standard.read lines).blocks) :
    ∃ position id first rest count, lines.drop position = first :: rest ∧
      Text.allBlank first = false ∧ extent? (first :: rest) = some count ∧
      b.bare = .ofLines position id ((first :: rest).take count) := by
  obtain ⟨turn, hturn, hanswer⟩ := exists_turn_of_mem_blocks hb
  obtain ⟨-, -, ⟨first, hfirst, hfull⟩, -⟩ := (reading_turns _).mem hturn
  obtain ⟨count, hextent, hbare⟩ := (reading_turns _).block_eq hturn hanswer
  obtain ⟨hlt, rfl⟩ := List.getElem?_eq_some_iff.mp hfirst
  rw [List.drop_eq_getElem_cons hlt] at hextent hbare
  exact ⟨_, _, _, _, count, List.drop_eq_getElem_cons hlt, hfull, hextent, hbare⟩

theorem fits_of_mem {text : Text} {b : Block} (hb : b ∈ (Grammar.standard.readText text).blocks) :
    b.kind.Fits b.content := by
  obtain ⟨_, _, first, rest, count, hleft, hfull, hextent, hbare⟩ := exists_left_of_mem hb
  have hlines : ∀ line ∈ first :: rest, Text.OneLine line := by
    rw [← hleft]
    exact fun line hline => Text.oneLine_of_mem_documentLines (List.mem_of_mem_drop hline)
  have hkind : b.bare.kind = b.kind := rfl
  have hcontent : b.bare.content = b.content := rfl
  rw [← hkind, ← hcontent, hbare]
  exact fits_of_extent? hfull hlines hextent

/-! ## The lines of a block -/

/-- The lines between two fences: none for an empty text. -/
def bodyLines (t : Text) : List Text := if t = [] then [] else Text.fields '\n' t

/-- The lines that a block is written on. -/
def Block.writtenLines (b : Block) : List Text :=
  match b.kind with
  | .heading level _ => [headingLine level b.content]
  | .quote => [quoteLine b.content]
  | .fence lang => (fenceMark ++ lang) :: (bodyLines b.content ++ [fenceMark])
  | .paragraph => [b.content]

theorem mem_bodyLines {t line : Text} (h : line ∈ bodyLines t) : line ∈ Text.fields '\n' t := by
  rw [bodyLines] at h
  split at h
  · cases h
  · exact h

theorem join_bodyLines (t : Text) : Text.join ['\n'] (bodyLines t) = t := by
  rw [bodyLines]
  split
  · next hnil =>
      rw [hnil]
      rfl
  · exact Text.join_fields t

theorem ofLines_bodyLines (t : Text) :
    Text.ofLines (bodyLines t) = if t.isEmpty then [] else t ++ ['\n'] := by
  cases t with
  | nil => rfl
  | cons c t => exact Text.ofLines_fields (c :: t)

theorem Block.written_eq (b : Block) : b.written = Text.ofLines b.writtenLines := by
  rw [Block.written, Block.writtenLines]
  cases b.kind with
  | heading level order =>
      simp only [Text.ofLines_singleton, headingLine, List.append_assoc, List.cons_append,
        List.nil_append]
  | quote => rw [Text.ofLines_singleton]; rfl
  | fence lang =>
      rw [Text.ofLines_cons, Text.ofLines_append, ofLines_bodyLines, Text.ofLines_singleton]
      simp only [List.append_assoc, List.cons_append, List.nil_append]
  | paragraph => rw [Text.ofLines_singleton]

/-- Lines that are one block are read as this block and nothing else. -/
theorem read_ofLines {part : List Text}
    (first : ∃ line rest, part = line :: rest ∧ Text.allBlank line = false)
    (extent : extent? part = some part.length) :
    Grammar.standard.read part = ⟨[.ofLines 0 1 part], []⟩ := by
  have hparts : Parts [part] :=
    .cons first (by rwa [List.flatten_nil, List.append_nil]) .nil
  obtain ⟨hfaults, hbare⟩ := hparts.read
  rw [List.flatten_singleton] at hfaults hbare
  have hfresh : (Block.ofLines 0 1 part).Fresh := fresh_ofLines part
  have hung : Hung [Block.ofLines 0 1 part] :=
    Hung.empty.concat hfresh (by simp) (scannedParent_nil _)
  have hblocks := (read_hung part).ext hung (by rw [hbare, List.map_singleton, hfresh.bare]; rfl)
  rw [← hblocks, ← hfaults]

/-! ## Reading what was written -/

/-- A block that is written out is read again: there is no problem and one
block, of the same kind and with the same text. -/
def Block.ReadsBack (b : Block) : Prop :=
  ∃ again, Grammar.standard.readText b.written = ⟨[again], []⟩ ∧
    again.kind = b.kind ∧ again.content = b.content

/-- Nothing in the text of the block means something else when it is written
out: a quote does not end with a blank, and a paragraph begins with neither a
fence nor the byte order mark. -/
def Block.Reprintable (b : Block) : Prop :=
  match b.kind with
  | .heading _ _ | .fence _ => True
  | .quote => b.content.getLast?.any Text.isBlank = false
  | .paragraph => ¬ fenceMark <+: b.content ∧ b.content.head? ≠ some Text.byteOrderMark

instance : DecidablePred Block.Reprintable
  | ⟨_, .heading _ _, _, _, _, _⟩ | ⟨_, .fence _, _, _, _, _⟩ => .isTrue trivial
  | ⟨_, .quote, content, _, _, _⟩ =>
    inferInstanceAs (Decidable (content.getLast?.any Text.isBlank = false))
  | ⟨_, .paragraph, content, _, _, _⟩ =>
    inferInstanceAs (Decidable (¬ fenceMark <+: content ∧
      content.head? ≠ some Text.byteOrderMark))

section Written

variable {b : Block} {line : Text} {rest : List Text}

theorem readText_written (hwritten : b.writtenLines = line :: rest)
    (hlines : ∀ l ∈ line :: rest, Text.OneLine l) (hfull : Text.allBlank line = false)
    (hmark : line.head? ≠ some Text.byteOrderMark) :
    Grammar.standard.readText b.written = Grammar.standard.read (line :: rest) := by
  have hhead : (Text.ofLines (line :: rest)).head? = line.head? := by
    rw [Text.ofLines_cons]
    refine List.head?_append_of_ne_nil _ ?_
    rintro rfl
    cases hfull
  rw [Grammar.readText, b.written_eq, hwritten, Text.documentLines_ofLines hlines (hhead ▸ hmark)]

theorem readsBack_iff_of_extent? (hwritten : b.writtenLines = line :: rest)
    (hlines : ∀ l ∈ line :: rest, Text.OneLine l) (hfull : Text.allBlank line = false)
    (hmark : line.head? ≠ some Text.byteOrderMark)
    (hextent : extent? (line :: rest) = some (line :: rest).length) :
    b.ReadsBack ↔ kindFrom line = b.kind ∧ contentFrom (line :: rest) = b.content := by
  have hread := readText_written hwritten hlines hfull hmark
  rw [read_ofLines ⟨line, rest, rfl, hfull⟩ hextent] at hread
  constructor
  · rintro ⟨again, hagain, hkind, hcontent⟩
    rw [hread] at hagain
    cases hagain
    exact ⟨hkind, hcontent⟩
  · exact fun ⟨hkind, hcontent⟩ => ⟨_, hread, hkind, hcontent⟩

theorem readsBack_heading {level : Nat} (hkind : b.kind = .heading level 1) (hlevel : 0 < level)
    (hline : Text.OneLine b.content) (htrim : Text.trim b.content = b.content) : b.ReadsBack := by
  have hwritten : b.writtenLines = [headingLine level b.content] := by
    rw [Block.writtenLines, hkind]
  have hmark : (headingLine level b.content).head? ≠ some Text.byteOrderMark := by
    obtain ⟨n, rfl⟩ : ∃ n, level = n + 1 := ⟨level - 1, by omega⟩
    rw [headingLine_succ, List.head?_cons]
    decide
  have hlines := List.forall_mem_singleton.mpr (oneLine_headingLine level hline)
  rw [readsBack_iff_of_extent? hwritten hlines (allBlank_headingLine hlevel) hmark
    (extent?_heading (shape_headingLine hlevel) []), hkind]
  exact ⟨kindFrom_headingLine hlevel htrim, contentFrom_headingLine hlevel htrim⟩

/-- A quote is read again but for the blanks at its end. -/
theorem readsBack_quote_iff (hkind : b.kind = .quote) (hline : Text.OneLine b.content) :
    b.ReadsBack ↔ b.content.getLast?.any Text.isBlank = false := by
  have hwritten : b.writtenLines = [quoteLine b.content] := by
    rw [Block.writtenLines, hkind]
  have hlines : ∀ l ∈ [quoteLine b.content], Text.OneLine l :=
    List.forall_mem_singleton.mpr
      (Text.oneLine_cons.mpr ⟨by decide, Text.oneLine_cons.mpr ⟨by decide, hline⟩⟩)
  have hextent : extent? [quoteLine b.content] = some 1 :=
    extent?_quote (shape_quoteLine b.content) fun _ h => nomatch h
  have hmark : (quoteLine b.content).head? ≠ some Text.byteOrderMark := by
    rw [quoteLine, List.head?_cons]
    decide
  rw [readsBack_iff_of_extent? hwritten hlines rfl hmark hextent, hkind, contentFrom_quoteLine_eq,
    Text.trimEnd_eq_self_iff_any]
  exact and_iff_right (kindFrom_quoteLine _)

theorem readsBack_fence {lang : Text} (hkind : b.kind = .fence lang) (hline : Text.OneLine lang)
    (htrim : Text.trim lang = lang) (hbody : Fenceable b.content) : b.ReadsBack := by
  have hwritten : b.writtenLines = (fenceMark ++ lang) :: (bodyLines b.content ++ [fenceMark]) := by
    rw [Block.writtenLines, hkind]
  have hlines : ∀ l ∈ (fenceMark ++ lang) :: (bodyLines b.content ++ [fenceMark]),
      Text.OneLine l := by
    rw [List.forall_mem_cons, List.forall_mem_append, List.forall_mem_singleton]
    refine ⟨Text.oneLine_append.mpr ⟨by decide, hline⟩, fun l hl => ?_, by decide⟩
    obtain ⟨hfeed, hsubset⟩ := Text.mem_fields (mem_bodyLines hl)
    exact ⟨fun hret => hbody.no_return (hsubset hret), hfeed⟩
  have hstart : Text.trimStart (fenceMark ++ lang) = fenceMark ++ lang := by rfl
  have hshape : Shape.of (fenceMark ++ lang) = .fence := by
    rw [Shape.of_eq_fence_iff, hstart]
    exact List.prefix_append _ _
  have hopening : Text.trim (fenceMark ++ lang) = fenceMark ++ lang := by
    rw [Text.trim, hstart, trimEnd_append_full fenceMark_full, Text.trimEnd_of_trim htrim]
  have hends : ∀ l ∈ bodyLines b.content, isFenceEnd l = false := fun l hl =>
    beq_false_of_ne (hbody.no_end l (mem_bodyLines hl))
  have hextent : extent? ((fenceMark ++ lang) :: (bodyLines b.content ++ [fenceMark])) =
      some ((fenceMark ++ lang) :: (bodyLines b.content ++ [fenceMark])).length := by
    rw [List.length_cons, List.length_append, List.length_singleton]
    exact extent?_fence hshape hends (by decide : isFenceEnd fenceMark = true) []
  have hmark : (fenceMark ++ lang).head? ≠ some Text.byteOrderMark := by
    rw [fenceMark, List.cons_append, List.head?_cons]
    decide
  rw [readsBack_iff_of_extent? hwritten hlines rfl hmark hextent, hkind]
  constructor
  · simp only [kindFrom, hshape, hopening, List.drop_left, htrim]
  · simp only [contentFrom, hshape, List.dropLast_concat, join_bodyLines]

/-! ## Paragraphs -/

/-- A paragraph that begins as a fence is read as one that is never closed. -/
theorem not_readsBack_of_fence (hwritten : b.writtenLines = [line]) (hline : Text.OneLine line)
    (hshape : Shape.of line = .fence) (hfull : Text.allBlank line = false)
    (hmark : line.head? ≠ some Text.byteOrderMark) : ¬ b.ReadsBack := by
  rintro ⟨again, hread, -, -⟩
  rw [readText_written hwritten (List.forall_mem_singleton.mpr hline) hfull hmark] at hread
  have hextent : extent? [line] = none :=
    extent?_eq_none_iff.mpr ⟨hshape, fun _ h => nomatch h⟩
  have hreading : Reading [line] 0 1 [⟨0, 1, .error ⟨.unterminatedFence, 1⟩⟩] :=
    .fault rfl hfull hextent (.done (Nat.le_refl _))
  have hfaults := congrArg Outline.diagnostics hread
  rw [Grammar.read, Grammar.turns, ← reading_iff.mp hreading] at hfaults
  cases hfaults

theorem shape_of_kindFrom_paragraph (h : kindFrom line = .paragraph) :
    Shape.of line = .paragraph := by
  rw [kindFrom] at h
  split at h
  · cases h
  · cases h
  · cases h
  · assumption

/-- A document of one line has no other block than that line. -/
theorem bare_of_mem_read_singleton (hb : b ∈ (Grammar.standard.read [line]).blocks) :
    b.bare = .ofLines 0 b.id [line] := by
  obtain ⟨position, id, first, rest, count, hleft, -, hextent, hbare⟩ := exists_left_of_mem hb
  cases position with
  | succ position =>
      rw [List.drop_succ_cons, List.drop_nil] at hleft
      cases hleft
  | zero =>
      cases hleft
      have hcount := (extent?_bounds hextent).1
      rw [List.take_of_length_le (by rwa [List.length_singleton])] at hbare
      have hid : b.id = id := congrArg Block.id hbare
      rw [hid, hbare]

/-- The byte order mark is passed over, so nothing that is read holds it at its
head. -/
theorem not_readsBack_of_mark (hkind : b.kind = .paragraph) (hline : Text.OneLine b.content)
    (hmark : b.content.head? = some Text.byteOrderMark) : ¬ b.ReadsBack := by
  rintro ⟨again, hread, hagain, hcontent⟩
  obtain ⟨rest, hrest⟩ := List.head?_eq_some_iff.mp hmark
  have hlines : Text.documentLines b.written = [rest] := by
    have hone : ∀ l ∈ [rest], Text.OneLine l :=
      List.forall_mem_singleton.mpr (Text.oneLine_cons.mp (hrest ▸ hline)).2
    rw [Block.written, hkind, hrest]
    exact (congrArg _ (Text.ofLines_singleton rest).symm).trans (Text.splitLines_ofLines hone)
  rw [Grammar.readText, hlines] at hread
  have hmem : again ∈ (Grammar.standard.read [rest]).blocks := by
    rw [hread]
    exact List.mem_cons_self
  have hbare := bare_of_mem_read_singleton hmem
  have hlength : again.content.length ≤ rest.length := by
    have hshape : Shape.of rest = .paragraph :=
      shape_of_kindFrom_paragraph ((congrArg Block.kind hbare).symm.trans (hagain.trans hkind))
    have htext : again.content = contentFrom [rest] := congrArg Block.content hbare
    rw [htext]
    simp only [contentFrom, hshape, List.flatten_nil, List.append_nil]
    exact (Text.trim_infix_self rest).length_le
  rw [hcontent, hrest, List.length_cons] at hlength
  omega

theorem readsBack_paragraph_iff (hkind : b.kind = .paragraph) (hline : Text.OneLine b.content)
    (htrim : Text.trim b.content = b.content) (hsome : b.content ≠ [])
    (hheading : Shape.of b.content ≠ .heading) (hquote : Shape.of b.content ≠ .quote) :
    b.ReadsBack ↔ ¬ fenceMark <+: b.content ∧ b.content.head? ≠ some Text.byteOrderMark := by
  have hwritten : b.writtenLines = [b.content] := by
    rw [Block.writtenLines, hkind]
  have hfull : Text.allBlank b.content = false := by
    rw [Bool.eq_false_iff, Ne, ← Text.trim_eq_nil_iff, htrim]
    exact hsome
  have hfence : Shape.of b.content = .fence ↔ fenceMark <+: b.content := by
    rw [Shape.of_eq_fence_iff, Text.trimStart_of_trim htrim]
  by_cases hmark : b.content.head? = some Text.byteOrderMark
  · exact iff_of_false (not_readsBack_of_mark hkind hline hmark) fun h => h.2 hmark
  · cases hshape : Shape.of b.content with
    | heading => exact absurd hshape hheading
    | quote => exact absurd hshape hquote
    | fence =>
        exact iff_of_false (not_readsBack_of_fence hwritten hline hshape hfull hmark) fun h =>
          h.1 (hfence.mp hshape)
    | paragraph =>
        have hextent : extent? [b.content] = some 1 := by
          simp only [extent?, hshape, List.takeWhile_nil, List.length_nil]
        rw [readsBack_iff_of_extent? hwritten (List.forall_mem_singleton.mpr hline) hfull hmark
          hextent, hkind, ← hfence, hshape]
        refine iff_of_true ⟨?_, ?_⟩ ⟨by decide, hmark⟩
        · simp only [kindFrom, hshape]
        · simp only [contentFrom, hshape, List.flatten_nil, List.append_nil, htrim]

end Written

/-! ## Blocks of documents -/

/-- A block of a document, written out on its own, is read again if and only if
its text says nothing else then. -/
theorem readsBack_iff {text : Text} {b : Block}
    (hb : b ∈ (Grammar.standard.readText text).blocks) : b.ReadsBack ↔ b.Reprintable := by
  have hfits := fits_of_mem hb
  rw [Block.Reprintable]
  generalize hkind : b.kind = kind at hfits ⊢
  cases hfits with
  | heading hlevel hline htrim =>
      exact iff_of_true (readsBack_heading hkind hlevel hline htrim) trivial
  | quote hline => exact readsBack_quote_iff hkind hline
  | fence hline htrim hbody =>
      exact iff_of_true (readsBack_fence hkind hline htrim hbody) trivial
  | paragraph hline htrim hsome hheading hquote =>
      exact readsBack_paragraph_iff hkind hline htrim hsome hheading hquote

/-- A title with marks of its own, a quote that begins with a blank and holds
another one, and a fence with a fourth mark, an empty line and what only looks
like its end are read again. A quote whose last line is empty is not, and
neither is a paragraph whose lines make a fence together. -/
theorem readsBack_marks_and_blanks :
    let text : Text := ("\uFEFF## # t #\r\n>  q\u2003\n>\u00A0r\n\n\x60\x60\x60\x60 x\r\n\r" ++
      " \x60\x60\x60y\n\t\x60\x60\x60\n> a\n>\n\x60\x60\n\x60b\n").toList
    let outline := Grammar.standard.readText text
    let title : Block := ⟨1, .heading 2 1, "# t #".toList, [1], none, [2, 3, 4, 5]⟩
    let quoted : Block := ⟨2, .quote, " q \u00A0r".toList, [2, 3], some 1, []⟩
    let fenced : Block :=
      ⟨3, .fence "\x60 x".toList, "\n \x60\x60\x60y".toList, [5, 6, 7, 8], some 1, []⟩
    let ended : Block := ⟨4, .quote, "a ".toList, [9, 10], some 1, []⟩
    let joined : Block := ⟨5, .paragraph, "\x60\x60\x60b".toList, [11, 12], some 1, []⟩
    outline = ⟨[title, quoted, fenced, ended, joined], []⟩ ∧
      (title.ReadsBack ∧ quoted.ReadsBack ∧ fenced.ReadsBack) ∧
      ¬ ended.ReadsBack ∧ ¬ joined.ReadsBack := by
  intro text outline title quoted fenced ended joined
  have hread : outline = ⟨[title, quoted, fenced, ended, joined], []⟩ := by decide +kernel
  have hall : ∀ b ∈ [title, quoted, fenced, ended, joined], b.ReadsBack ↔ b.Reprintable :=
    fun b hb => readsBack_iff ((congrArg Outline.blocks hread).symm ▸ hb : b ∈ outline.blocks)
  refine ⟨hread, ⟨(hall title ?_).mpr ?_, (hall quoted ?_).mpr ?_, (hall fenced ?_).mpr ?_⟩,
    fun h => absurd ((hall ended ?_).mp h) ?_, fun h => absurd ((hall joined ?_).mp h) ?_⟩
  all_goals decide +kernel

end RequestBook
