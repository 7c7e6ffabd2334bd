import Mathlib.Data.List.Chain
import RequestBook.Book
import RequestBook.Proofs.Splitting

/-!
# Ends of lines are interchangeable

A document may end each of its lines in a way of its own, leave the last end
off and carry a byte order mark: its lines are the same
(`ends_interchangeable`). One pair of ends cannot be told from another. A
carriage return right before a line feed is one end, so after a carriage
return no empty line may be closed by a line feed.

All of this is one step, `splitLines_end`: an end closes the line under way,
provided that what comes next does not make it longer.
-/

namespace RequestBook

/-- What a line may end with. -/
inductive LineEnd where
  | feed
  | ret
  /-- A carriage return and a line feed, which are one end. -/
  | both
  deriving DecidableEq, Repr

/-- The end as it is written. -/
def LineEnd.text : LineEnd → Text
  | feed => ['\n']
  | ret => ['\r']
  | both => ['\r', '\n']

namespace Text

/-- Lines written one after the other, each with its end. -/
def endedText (lines : List (Text × LineEnd)) : Text :=
  lines.flatMap fun line => line.1 ++ line.2.text

/-- Lines as they are stored: behind a byte order mark or not, and with or
without the end of the last line. -/
def storedText (marked closed : Bool) (lines : List (Text × LineEnd)) : Text :=
  (if marked then [byteOrderMark] else []) ++
    if closed then endedText lines
    else endedText lines.dropLast ++ lines.getLast?.elim [] Prod.fst

/-- What lines need to be told apart again. -/
structure Storable (closed : Bool) (lines : List (Text × LineEnd)) : Prop where
  oneLine : ∀ line ∈ lines, OneLine line.1
  unmarked : ∀ line, lines.head? = some line → line.1.head? ≠ some byteOrderMark
  /-- The ends of two lines do not become one. -/
  apart : lines.IsChain fun line next => ¬ (line.2 = .ret ∧ next = ([], .feed))
  /-- A last line without an end is there only if it is not empty. -/
  last : closed = false → ∀ line, lines.getLast? = some line → line.1 ≠ []

/-- The text with another end in the place of every line feed. -/
def withEnds (e : LineEnd) (t : Text) : Text :=
  t.flatMap fun c => if c = '\n' then e.text else [c]

/-! ## One end -/

/-- An end closes the line under way. -/
theorem splitLines_end (e : LineEnd) (before : Text) {rest : Text}
    (h : e = .ret → rest.head? ≠ some '\n') :
    splitLines before (e.text ++ rest) = before.reverse :: splitLines [] rest := by
  cases e with
  | feed => exact splitLines_feed before rest
  | both => rfl
  | ret =>
      cases rest with
      | nil => rfl
      | cons c rest =>
          have hc : c ≠ '\n' := fun heq => h rfl (congrArg some heq)
          show splitLines before ('\r' :: c :: rest) = _
          rw [splitLines, if_pos (by decide)]
          intro _ _ heq
          exact hc (List.cons.inj heq).1

/-- Behind a carriage return a text goes on with a line feed only where an
empty line is closed by one. -/
theorem head?_endedText_ne {lines : List (Text × LineEnd)} {rest : Text}
    (hlines : ∀ line ∈ lines, OneLine line.1) (hrest : OneLine rest)
    (hfirst : lines.head? ≠ some ([], .feed)) :
    (endedText lines ++ rest).head? ≠ some '\n' := by
  intro hhead
  cases lines with
  | nil => exact hrest.2 (List.mem_of_head? hhead)
  | cons line lines =>
      obtain ⟨own, e⟩ := line
      cases own with
      | cons c own =>
          have hc : c = '\n' := Option.some.inj hhead
          exact (hlines _ List.mem_cons_self).2 (hc ▸ List.mem_cons_self)
      | nil =>
          cases e with
          | feed => exact hfirst rfl
          | ret | both =>
              have hret : '\r' = '\n' := Option.some.inj hhead
              exact absurd hret (by decide)

/-! ## Any ends -/

theorem splitLines_endedText {lines : List (Text × LineEnd)} {rest : Text}
    (hlines : ∀ line ∈ lines, OneLine line.1) (hrest : OneLine rest)
    (hapart : lines.IsChain fun line next => ¬ (line.2 = .ret ∧ next = ([], .feed))) :
    splitLines [] (endedText lines ++ rest) =
      lines.map Prod.fst ++ if rest.isEmpty then [] else [rest] := by
  induction lines with
  | nil =>
      have hsplit := splitLines_append hrest [] []
      rw [List.append_nil, List.append_nil] at hsplit
      show splitLines [] rest = _
      rw [hsplit, splitLines, List.isEmpty_reverse, List.reverse_reverse]
      rfl
  | cons line lines ih =>
      obtain ⟨hline, hlines⟩ := List.forall_mem_cons.mp hlines
      obtain ⟨hnext, hapart⟩ := List.isChain_cons.mp hapart
      have hhead : line.2 = .ret → (endedText lines ++ rest).head? ≠ some '\n' := by
        intro hret
        refine head?_endedText_ne hlines hrest fun hfirst => ?_
        exact hnext _ hfirst ⟨hret, rfl⟩
      calc splitLines [] (endedText (line :: lines) ++ rest)
          = splitLines [] (line.1 ++ (line.2.text ++ (endedText lines ++ rest))) := by
            simp only [endedText, List.flatMap_cons, List.append_assoc]
        _ = splitLines line.1.reverse (line.2.text ++ (endedText lines ++ rest)) := by
            rw [splitLines_append hline, List.append_nil]
        _ = line.1 :: splitLines [] (endedText lines ++ rest) := by
            rw [splitLines_end _ _ hhead, List.reverse_reverse]
        _ = _ := by rw [ih hlines hapart]; rfl

/-- A text with ends of lines begins with the mark only if its first line
does. -/
theorem withoutMark_endedText {lines : List (Text × LineEnd)} {rest : Text}
    (hfirst : ∀ line, (lines.map Prod.fst ++ [rest]).head? = some line →
      line.head? ≠ some byteOrderMark) :
    withoutMark (endedText lines ++ rest) = endedText lines ++ rest := by
  have hhead : (endedText lines ++ rest).head? ≠ some byteOrderMark := by
    cases lines with
    | nil => exact hfirst rest rfl
    | cons line lines =>
        obtain ⟨own, e⟩ := line
        cases own with
        | cons c own => exact hfirst (c :: own) rfl
        | nil =>
            intro hhead
            cases e with
            | feed => exact absurd (Option.some.inj hhead : '\n' = byteOrderMark) (by decide)
            | ret | both =>
                exact absurd (Option.some.inj hhead : '\r' = byteOrderMark) (by decide)
  cases ht : endedText lines ++ rest with
  | nil => rfl
  | cons c t =>
      rw [ht] at hhead
      rw [withoutMark, if_neg fun hc => hhead (congrArg some hc)]

theorem documentLines_marked (marked : Bool) {lines : List (Text × LineEnd)} {rest : Text}
    (hlines : ∀ line ∈ lines, OneLine line.1) (hrest : OneLine rest)
    (hfirst : ∀ line, (lines.map Prod.fst ++ [rest]).head? = some line →
      line.head? ≠ some byteOrderMark)
    (hapart : lines.IsChain fun line next => ¬ (line.2 = .ret ∧ next = ([], .feed))) :
    documentLines ((if marked then [byteOrderMark] else []) ++ (endedText lines ++ rest)) =
      lines.map Prod.fst ++ if rest.isEmpty then [] else [rest] := by
  have hwhole := splitLines_endedText hlines hrest hapart
  cases marked with
  | true =>
      show splitLines [] (endedText lines ++ rest) = _
      exact hwhole
  | false =>
      show splitLines [] (withoutMark (endedText lines ++ rest)) = _
      rw [withoutMark_endedText hfirst, hwhole]

theorem documentLines_storedText {closed : Bool} {lines : List (Text × LineEnd)}
    (h : Storable closed lines) (marked : Bool) :
    documentLines (storedText marked closed lines) = lines.map Prod.fst := by
  have hnone : OneLine [] := by decide
  cases closed with
  | true =>
      have hfirst : ∀ line, (lines.map Prod.fst ++ [[]]).head? = some line →
          line.head? ≠ some byteOrderMark := by
        intro line hline
        cases lines with
        | nil =>
            cases hline
            exact fun hhead => nomatch hhead
        | cons first lines =>
            cases hline
            exact h.unmarked first rfl
      have hlines := documentLines_marked marked h.oneLine hnone hfirst h.apart
      rw [List.append_nil] at hlines
      rw [storedText, if_pos rfl, hlines]
      exact List.append_nil _
  | false =>
      rw [storedText, if_neg Bool.false_ne_true]
      rcases List.eq_nil_or_concat' lines with rfl | ⟨init, last, rfl⟩
      · cases marked <;> rfl
      · have hlast : last.1 ≠ [] := h.last rfl last List.getLast?_concat
        have hinit : ∀ line ∈ init, OneLine line.1 := fun line hline =>
          h.oneLine line (List.mem_append_left _ hline)
        have hopen : OneLine last.1 := h.oneLine last (List.mem_append_right _ List.mem_cons_self)
        have hfirst : ∀ line, (init.map Prod.fst ++ [last.1]).head? = some line →
            line.head? ≠ some byteOrderMark := by
          intro line hline
          rw [← List.map_singleton, ← List.map_append, List.head?_map,
            Option.map_eq_some_iff] at hline
          obtain ⟨first, hhead, rfl⟩ := hline
          exact h.unmarked first hhead
        have hlines := documentLines_marked marked hinit hopen hfirst
          (h.apart.left_of_append)
        rw [List.dropLast_concat, List.getLast?_concat, Option.elim_some, hlines,
          if_neg (by simpa using hlast), List.map_append, List.map_singleton]

/-! ## One end for another -/

theorem feed_not_mem_withEnds_ret (t : Text) : '\n' ∉ withEnds .ret t := by
  intro hmem
  obtain ⟨c, -, hc⟩ := List.mem_flatMap.mp hmem
  by_cases hfeed : c = '\n'
  · rw [if_pos hfeed] at hc
    exact absurd hc (by decide)
  · rw [if_neg hfeed] at hc
    exact hfeed (List.mem_singleton.mp hc).symm

theorem splitLines_withEnds (e : LineEnd) {t : Text} (h : '\r' ∉ t) (before : Text) :
    splitLines before (withEnds e t) = splitLines before t := by
  induction t generalizing before with
  | nil => rfl
  | cons c t ih =>
      have ht := List.not_mem_of_not_mem_cons h
      rw [withEnds, List.flatMap_cons, ← withEnds]
      by_cases hc : c = '\n'
      · have hhead : e = .ret → (withEnds e t).head? ≠ some '\n' := by
          rintro rfl hhead
          exact feed_not_mem_withEnds_ret t (List.mem_of_head? hhead)
        rw [if_pos hc, splitLines_end e before hhead, ih ht, hc, splitLines_feed]
      · have hone : OneLine [c] :=
          ⟨fun hmem => h (List.mem_singleton.mp hmem ▸ List.mem_cons_self),
            fun hmem => hc (List.mem_singleton.mp hmem).symm⟩
        have hsplit := splitLines_append hone before t
        rw [if_neg hc, splitLines_append hone, ih ht, ← hsplit]
        rfl

theorem withoutMark_withEnds (e : LineEnd) (t : Text) :
    withoutMark (withEnds e t) = withEnds e (withoutMark t) := by
  cases t with
  | nil => rfl
  | cons c t =>
      rw [withEnds, List.flatMap_cons, ← withEnds, withoutMark]
      by_cases hc : c = '\n'
      · subst hc
        cases e <;> rfl
      · rw [if_neg hc, List.singleton_append, withoutMark]
        split
        · rfl
        · rw [withEnds, withEnds, List.flatMap_cons, if_neg hc, List.singleton_append]

theorem mem_of_mem_withoutMark {c : Char} {t : Text} (h : c ∈ withoutMark t) : c ∈ t := by
  cases t with
  | nil => cases h
  | cons d t =>
      rw [withoutMark] at h
      split at h
      · exact List.mem_cons_of_mem _ h
      · exact h

theorem documentLines_withEnds (e : LineEnd) {t : Text} (h : '\r' ∉ t) :
    documentLines (withEnds e t) = documentLines t := by
  have hleft : '\r' ∉ withoutMark t := fun hmem => h (mem_of_mem_withoutMark hmem)
  rw [documentLines, withoutMark_withEnds, splitLines_withEnds e hleft, documentLines]

end Text

/-- Lines come back from a text whatever ends them, and a book is the same
whatever ends the lines of its text. -/
theorem ends_interchangeable :
    (∀ {closed : Bool} {lines : List (Text × LineEnd)}, Text.Storable closed lines →
      ∀ marked, Text.documentLines (Text.storedText marked closed lines) = lines.map Prod.fst) ∧
    ∀ {t : Text}, '\r' ∉ t → ∀ e, Book.compile (Text.withEnds e t) = Book.compile t := by
  refine ⟨fun h marked => Text.documentLines_storedText h marked, fun ht e => ?_⟩
  rw [Book.compile, Grammar.readText, Text.documentLines_withEnds e ht]
  rfl

/-- Each end follows each other one around empty lines, a second mark stands
where no first line begins, and the last end is left off. -/
theorem ends_interchangeable_mixed :
    let lines : List (Text × LineEnd) := [([], .ret), ([], .ret), ("# a".toList, .both),
      ([], .feed), ([], .both), ("\uFEFF> b".toList, .ret), ("c".toList, .feed)]
    let t : Text := "\uFEFF\uFEFF## r\n\n### url\n> GET http://h\n".toList
    Text.Storable false lines ∧
      Text.documentLines (Text.storedText true false lines) = lines.map Prod.fst ∧
      Text.documentLines (Text.storedText false false lines) = lines.map Prod.fst ∧
      '\r' ∉ t ∧ Book.compile (Text.withEnds .ret t) = Book.compile t ∧
      Book.compile (Text.withEnds .both t) = Book.compile t := by
  intro lines t
  have h : Text.Storable false lines := {
    oneLine := by decide +kernel
    unmarked := by decide +kernel
    apart := by decide +kernel
    last := by decide +kernel }
  have ht : '\r' ∉ t := by decide +kernel
  exact ⟨h, ends_interchangeable.1 h true, ends_interchangeable.1 h false, ht,
    ends_interchangeable.2 ht .ret, ends_interchangeable.2 ht .both⟩

end RequestBook
