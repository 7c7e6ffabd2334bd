import RequestBook.BookTest.Expectations
import RequestBook.BookTest.FrontMatter
import RequestBook.Proofs.LineEnds
import RequestBook.Proofs.Spelling

/-!
# Front matter is split off

The closing dashes are looked for together with the line feed before them, so
the search stops at the first line that begins with dashes and not at dashes
that stand in a line (`cut?_line`). Lines of front matter do not begin so, and
nothing in the document after them is looked at. What comes before the line
feed may be a carriage return that belongs to the line end; it is taken off
again, and no other one with it, because no line ends with one.

The line end behind the opening dashes is taken off before the search begins.
With a line between the dashes there is another line end; with none, the one
that was taken off is the one that the search needs. So the closing dashes are
found exactly if there is a line of front matter (`split_written`): two lines of
dashes with nothing between them are no front matter, although no key has to be
there.
-/

namespace RequestBook

namespace Text

theorem prefix_append_iff_of_head {mark line t : Text} (ht : ∀ c ∈ t.head?, c ∉ mark) :
    mark <+: line ++ t ↔ mark <+: line := by
  constructor
  · intro h
    rcases List.prefix_or_prefix_of_prefix h (List.prefix_append line t) with hmark | ⟨more, hmore⟩
    · exact hmark
    · -- what is left of the mark would begin with what stands behind the line
      rw [← hmore, List.prefix_append_right_inj] at h
      cases more with
      | nil => exact (hmore.symm.trans (List.append_nil line)) ▸ List.prefix_rfl
      | cons c more =>
          obtain ⟨rest, rfl⟩ := h
          exact absurd (hmore ▸ List.mem_append_right _ List.mem_cons_self) (ht c rfl)
  · exact fun h => h.trans (List.prefix_append line t)

/-- A mark that stands at the head of a line is looked for line by line. -/
theorem cut?_line {sep : Char} {line : Text} (hline : sep ∉ line) (mark rest : Text) :
    cut? (sep :: mark) (line ++ sep :: rest) =
      match after? mark rest with
      | some behind => some (line, behind)
      | none => (cut? (sep :: mark) rest).map fun (before, behind) => (line ++ sep :: before, behind) := by
  induction line with
  | nil =>
      rw [List.nil_append, cut?, after?, if_pos rfl]
      cases after? mark rest <;> rfl
  | cons c line ih =>
      obtain ⟨hc, hline⟩ := List.ne_and_not_mem_of_not_mem_cons hline
      rw [List.cons_append, cut?, after?, if_neg hc, ih hline]
      cases after? mark rest with
      | some behind => rfl
      | none =>
          simp only [Option.map_map]
          rfl

/-- The search passes the head of the first line over, and finds a mark at the
head of any other. -/
theorem after?_and_cut?_eq_none_iff {sep : Char} {mark : Text} (hmark : sep ∉ mark) {t : Text} :
    after? mark t = none ∧ cut? (sep :: mark) t = none ↔
      ∀ line ∈ fields sep t, ¬ mark <+: line := by
  have hpieces : ∀ piece ∈ fields sep t, sep ∉ piece := fun piece hpiece => (mem_fields hpiece).1
  have hne : fields sep t ≠ [] := fields_ne_nil t
  have hjoin : join [sep] (fields sep t) = t := join_fields t
  rw [← hjoin, fields_join hne hpieces]
  generalize fields sep t = pieces at hpieces hne
  induction pieces with
  | nil => exact absurd rfl hne
  | cons piece pieces ih =>
      obtain ⟨hpiece, hpieces⟩ := List.forall_mem_cons.mp hpieces
      rw [List.forall_mem_cons, after?_eq_none_iff]
      cases pieces with
      | nil =>
          have hnone : cut? (sep :: mark) piece = none :=
            cut?_of_not_infix (List.cons_ne_nil _ _) fun h =>
              hpiece (h.subset List.mem_cons_self)
          rw [join, List.intercalate_singleton]
          simp [hnone]
      | cons next pieces =>
          have hjoin : join [sep] (piece :: next :: pieces) =
              piece ++ sep :: join [sep] (next :: pieces) := by
            rw [join, List.intercalate_cons_cons, List.append_assoc, List.singleton_append, join]
          have hrest := ih hpieces (List.cons_ne_nil _ _)
          rw [hjoin, prefix_append_iff_of_head (by simpa using hmark), cut?_line hpiece]
          refine and_congr_right fun _ => Iff.trans ?_ hrest
          cases after? mark (join [sep] (next :: pieces)) <;> simp

end Text

/-! ## Keys -/

namespace Expectations

section Keys

variable {entries : List (Text × Toml)} (keep : Text → Bool)

theorem lookup_filter_key (key : Text) :
    (entries.filter fun entry => keep entry.1).lookup key =
      if keep key then entries.lookup key else none := by
  induction entries with
  | nil => simp
  | cons entry entries ih =>
      rw [List.filter_cons]
      grind

/-- A key that is left out does not stand in the way of those read after it. -/
theorem exists_ok_bind_of_kept {α β : Type} {read : Toml → Except Toml.Fault α} {key : Text}
    {f g : Option α → Except Toml.Fault β}
    (h : ∃ own, (entries.lookup key).mapM read >>= f = .ok own)
    (hrest : ∀ value other, (∃ own, f value = .ok own) → ∃ own, g other = .ok own) :
    ∃ own, ((entries.filter fun entry => keep entry.1).lookup key).mapM read >>= g = .ok own := by
  cases hread : (entries.lookup key).mapM read with
  | error fault =>
      rw [hread] at h
      obtain ⟨own, h⟩ := h
      cases h
  | ok value =>
      rw [hread] at h
      rw [lookup_filter_key]
      split
      · rw [hread]
        exact hrest value value h
      · exact hrest value none h

/-- Whatever keys are left out, what is left is valid. -/
theorem exists_ofEntries_of_kept (h : ∃ own, ofEntries entries = .ok own) :
    ∃ own, ofEntries (entries.filter fun entry => keep entry.1) = .ok own := by
  unfold ofEntries at h ⊢
  -- one key after the other, in the order in which they are read
  iterate 15 refine exists_ok_bind_of_kept keep h fun _ _ h => ?_
  exact ⟨_, rfl⟩

end Keys

end Expectations

namespace FrontMatter

/-! ## Files with front matter -/

/-- A line of dashes, lines of front matter, a line of dashes and a document,
with one end for all lines but those of the document. -/
def written (e : LineEnd) (front : List Text) (document : Text) : Text :=
  delimiter ++ e.text ++ (front.flatMap (· ++ e.text) ++ (delimiter ++ (e.text ++ document)))

/-- A line that the search for the closing dashes goes past. -/
structure IsLine (line : Text) : Prop where
  oneLine : Text.OneLine line
  undashed : ¬ delimiter <+: line

/-! ## Line ends -/

section Ends

variable {e : LineEnd} (he : e ≠ .ret)

include he

/-- Of a line end the search takes the line feed alone. -/
theorem exists_returns : ∃ returns, (returns = [] ∨ returns = ['\r']) ∧
    e.text = returns ++ ['\n'] := by
  cases e with
  | feed => exact ⟨[], .inl rfl, rfl⟩
  | ret => exact absurd rfl he
  | both => exact ⟨['\r'], .inr rfl, rfl⟩

theorem skipLineEnd_text (t : Text) : skipLineEnd (e.text ++ t) = t := by
  cases e with
  | feed | both => rfl
  | ret => exact absurd rfl he

/-- Lines that were joined do not end with a carriage return. -/
theorem getLast?_join_ne {front : List Text} (hlines : ∀ line ∈ front, IsLine line) :
    (Text.join e.text front).getLast? ≠ some '\r' := by
  induction front with
  | nil => exact Option.some_ne_none _ ∘ Eq.symm
  | cons line front ih =>
      obtain ⟨hline, hfront⟩ := List.forall_mem_cons.mp hlines
      cases front with
      | nil =>
          rw [Text.join, List.intercalate_singleton]
          exact fun hlast => hline.oneLine.1 (List.mem_of_getLast? hlast)
      | cons next front =>
          have hrest := ih hfront
          rw [Text.join] at hrest
          rw [Text.join, List.intercalate_cons_cons, List.getLast?_append]
          cases hlast : (List.intercalate e.text (next :: front)).getLast? with
          | some c =>
              rw [hlast] at hrest
              exact hrest
          | none =>
              cases e with
              | feed | both => simp [LineEnd.text]
              | ret => exact absurd rfl he

end Ends

theorem trimReturns_concat (t : Text) (c : Char) :
    trimReturns (t ++ [c]) = if c = '\r' then trimReturns t else t ++ [c] := by
  refine (List.rdropWhile_concat _ _ _).trans ?_
  simp only [decide_eq_true_eq]
  rfl

theorem trimReturns_append {t returns : Text} (ht : t.getLast? ≠ some '\r')
    (hreturns : returns = [] ∨ returns = ['\r']) : trimReturns (t ++ returns) = t := by
  have hwhole : trimReturns t = t := by
    refine List.rdropWhile_eq_self_iff.mpr fun hne hlast => ht ?_
    rw [List.getLast?_eq_getLast_of_ne_nil hne, of_decide_eq_true hlast]
  rcases hreturns with rfl | rfl
  · rw [List.append_nil, hwhole]
  · rw [trimReturns_concat, if_pos rfl, hwhole]

/-! ## The closing dashes -/

/-- Front matter up to the closing dashes begins with a line, so there is a
line end before them. -/
theorem cut?_lines {returns : Text} (hreturns : returns = [] ∨ returns = ['\r'])
    {front : List Text} (hlines : ∀ line ∈ front, IsLine line) (hne : front ≠ []) (behind : Text) :
    Text.cut? ('\n' :: delimiter)
        (front.flatMap (· ++ (returns ++ ['\n'])) ++ (delimiter ++ behind)) =
      some (Text.join (returns ++ ['\n']) front ++ returns, behind) := by
  have hfeed : '\n' ∉ returns := by
    rcases hreturns with rfl | rfl <;> decide
  induction front with
  | nil => exact absurd rfl hne
  | cons line front ih =>
      obtain ⟨hline, hfront⟩ := List.forall_mem_cons.mp hlines
      have hfirst : '\n' ∉ line ++ returns := fun hmem =>
        (List.mem_append.mp hmem).elim hline.oneLine.2 hfeed
      rw [List.flatMap_cons, ← List.append_assoc line, List.append_assoc (line ++ returns),
        List.append_assoc (line ++ returns), List.singleton_append, List.cons_append,
        Text.cut?_line hfirst]
      cases front with
      | nil =>
          have hdashes : Text.after? delimiter (delimiter ++ behind) = some behind :=
            Text.after?_eq_some_iff.mpr rfl
          rw [List.flatMap_nil, List.nil_append, hdashes, Text.join, List.intercalate_singleton]
      | cons next front =>
          have hnext := (List.forall_mem_cons.mp hfront).1
          have hundashed : Text.after? delimiter
              ((next :: front).flatMap (· ++ (returns ++ ['\n'])) ++ (delimiter ++ behind)) = none := by
            rw [Text.after?_eq_none_iff, List.flatMap_cons, List.append_assoc, List.append_assoc,
              Text.prefix_append_iff_of_head]
            · exact hnext.undashed
            · rcases hreturns with rfl | rfl <;> exact fun c hc => Option.some.inj hc ▸ by decide
          rw [hundashed, ih hfront (List.cons_ne_nil _ _), Text.join, Text.join,
            List.intercalate_cons_cons]
          simp

/-- The split of a file that was written: the search begins behind the first
line end. -/
theorem split_written_eq {e : LineEnd} (he : e ≠ .ret) (front : List Text) (document : Text) :
    split (written e front document) =
      (Text.cut? ('\n' :: delimiter)
        (front.flatMap (· ++ e.text) ++ (delimiter ++ (e.text ++ document)))).elim
        (.error .noClosing) fun found => .ok (trimReturns found.1, skipLineEnd found.2) := by
  have hopen (t : Text) : Text.after? delimiter
      ((delimiter ++ t).dropWhile fun c => c.toNat = 0xFEFF) = some t :=
    Text.after?_eq_some_iff.mpr rfl
  rw [written, List.append_assoc, split, hopen]
  simp only [skipLineEnd_text he]
  cases Text.cut? ('\n' :: delimiter)
    (front.flatMap (· ++ e.text) ++ (delimiter ++ (e.text ++ document))) <;> rfl

/-- Without front matter the search begins behind the line feed that it needs. -/
theorem cut?_nothing {e : LineEnd} (he : e ≠ .ret) (document : Text) :
    Text.cut? ('\n' :: delimiter) (delimiter ++ (e.text ++ document)) = none ↔
      ∀ line ∈ Text.fields '\n' document, ¬ delimiter <+: line := by
  obtain ⟨returns, hreturns, htext⟩ := exists_returns he
  have hfirst : '\n' ∉ delimiter ++ returns := by
    rcases hreturns with rfl | rfl <;> decide
  rw [← Text.after?_and_cut?_eq_none_iff (by decide : '\n' ∉ delimiter), htext, List.append_assoc,
    ← List.append_assoc, List.singleton_append, Text.cut?_line hfirst]
  cases Text.after? delimiter document <;> simp

/-- What is cut off in front of a line feed begins as the whole does. -/
theorem prefix_of_cut? {mark t before behind : Text} (hmark : '\n' ∉ mark)
    (hcut : Text.cut? ('\n' :: delimiter) (mark ++ t) = some (before, behind)) : mark <+: before := by
  induction mark generalizing before with
  | nil => exact List.nil_prefix
  | cons c mark ih =>
      obtain ⟨hc, hmark⟩ := List.ne_and_not_mem_of_not_mem_cons hmark
      rw [List.cons_append, Text.cut?, Text.after?, if_neg hc] at hcut
      simp only [Option.map_eq_some_iff] at hcut
      obtain ⟨⟨before', behind'⟩, hcut', heq⟩ := hcut
      obtain ⟨rfl, rfl⟩ := Prod.mk.inj heq
      exact List.cons_prefix_cons.mpr ⟨rfl, ih hmark hcut'⟩

theorem prefix_trimReturns {before : Text} (h : delimiter <+: before) :
    delimiter <+: trimReturns before := by
  obtain ⟨t, rfl⟩ := h
  induction t using List.reverseRecOn with
  | nil => decide
  | append_singleton t c ih =>
      rw [← List.append_assoc, trimReturns_concat]
      split
      · exact ih
      · exact (List.prefix_append _ _).trans (List.prefix_append _ _)

/-! ## Files -/

/-- With a line of front matter all that is put around the lines is taken off. -/
theorem split_written_of_ne_nil {e : LineEnd} (he : e ≠ .ret) {front : List Text}
    (hlines : ∀ line ∈ front, IsLine line) (hne : front ≠ []) (document : Text) :
    split (written e front document) = .ok (Text.join e.text front, document) := by
  obtain ⟨returns, hreturns, htext⟩ := exists_returns he
  have hlast := getLast?_join_ne he hlines
  have hcut := cut?_lines hreturns hlines hne (e.text ++ document)
  rw [← htext] at hcut
  rw [split_written_eq he, hcut, Option.elim_some, trimReturns_append hlast hreturns,
    skipLineEnd_text he]

section Nothing

variable {e : LineEnd} (he : e ≠ .ret) {document : Text}

include he

theorem split_nothing_eq_error_iff : split (written e [] document) = .error .noClosing ↔
    ∀ line ∈ Text.fields '\n' document, ¬ delimiter <+: line := by
  rw [split_written_eq he, List.flatMap_nil, List.nil_append, ← cut?_nothing he]
  cases Text.cut? ('\n' :: delimiter) (delimiter ++ (e.text ++ document)) <;> simp

/-- The closing dashes are taken for front matter. -/
theorem prefix_of_split_nothing {own rest : Text}
    (hsplit : split (written e [] document) = .ok (own, rest)) : delimiter <+: own := by
  rw [split_written_eq he, List.flatMap_nil, List.nil_append] at hsplit
  cases hcut : Text.cut? ('\n' :: delimiter) (delimiter ++ (e.text ++ document)) with
  | none =>
      rw [hcut] at hsplit
      cases hsplit
  | some found =>
      rw [hcut] at hsplit
      cases hsplit
      exact prefix_trimReturns (prefix_of_cut? (by decide) hcut)

end Nothing

/-- A file with front matter is split into its lines, joined as they were, and
the document. One with nothing between its dashes is not: it has no closing
dashes, or those of its document are taken for them and its own for front
matter. Nothing is front matter all the same, as every key may be left out. -/
theorem split_written {e : LineEnd} (he : e ≠ .ret) {front : List Text}
    (hlines : ∀ line ∈ front, IsLine line) (document : Text) :
    (split (written e front document) = .ok (Text.join e.text front, document) ↔ front ≠ []) ∧
      (front = [] →
        (split (written e front document) = .error .noClosing ↔
          ∀ line ∈ Text.fields '\n' document, ¬ delimiter <+: line) ∧
        ∀ own rest, split (written e front document) = .ok (own, rest) → delimiter <+: own) ∧
      Expectations.ofText [] = .ok {} ∧
      ∀ (entries : List (Text × Toml)) (keep : Text → Bool),
        (∃ own, Expectations.ofEntries entries = .ok own) →
          ∃ own, Expectations.ofEntries (entries.filter fun entry => keep entry.1) = .ok own := by
  refine ⟨⟨fun hsplit hnil => ?_, fun hne => split_written_of_ne_nil he hlines hne document⟩,
    ?_, rfl, fun entries keep => Expectations.exists_ofEntries_of_kept keep⟩
  · rw [hnil] at hsplit
    have hdashes := prefix_of_split_nothing he hsplit
    rw [Text.join, List.intercalate_nil] at hdashes
    exact absurd hdashes (by decide)
  · rintro rfl
    exact ⟨split_nothing_eq_error_iff he, fun own rest => prefix_of_split_nothing he⟩

/-- Lines that are empty or begin with two dashes, and a document with dashes of
its own. -/
theorem split_written_dashes :
    let front := ["".toList, "a = 1".toList, "-- b".toList, "".toList]
    let document := "\n---\nx\r\n---".toList
    (∀ line ∈ front, IsLine line) ∧
      written .both front document =
        "---\r\n\r\na = 1\r\n-- b\r\n\r\n---\r\n\n---\nx\r\n---".toList ∧
      split (written .both front document) = .ok ("\r\na = 1\r\n-- b\r\n".toList, document) := by
  intro front document
  have hlines : ∀ line ∈ front, IsLine line := by
    have hall : ∀ line ∈ front, Text.OneLine line ∧ ¬ delimiter <+: line := by decide
    exact fun line hline => ⟨(hall line hline).1, (hall line hline).2⟩
  exact ⟨hlines, by decide, (split_written (by decide) hlines document).1.mpr (by decide)⟩

/-- No key has to be there, but no key at all cannot be written as nothing
between two lines of dashes. -/
theorem split_written_nothing :
    let document := "## R\nx".toList
    written .feed [] document = "---\n---\n## R\nx".toList ∧
      Expectations.ofText (Text.join LineEnd.feed.text []) = .ok {} ∧
      split (written .feed [] document) = .error .noClosing ∧
      split (written .feed [] document) ≠ .ok (Text.join LineEnd.feed.text [], document) := by
  decide

end FrontMatter

end RequestBook
