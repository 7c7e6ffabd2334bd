import RequestBook.Proofs.LineEnds
import RequestBook.Proofs.Pointing

/-!
# Labels and the lines of a document

A diagnostic counts the lines of its document, its label counts line feeds. The
two agree on a line when no line up to it ends with a lone carriage return that
something follows, and on no other line (`label_covers_iff`): a carriage return
of that kind ends a line of the document and no stored one, so from there on
the stored line of the same number begins too late or ends too late. A text
whose lines end with line feeds, behind a carriage return or not, has every
label in place. Elsewhere a label may lie on another line, or be missing
(`label_behind_lone_return`).

`linePieces` is the document's way of cutting the stored text itself. That a
label which is in place needs the ends is shown by counting line feeds in what
stands before it: as many as there are stored lines, and at most one in each
line of the document.
-/

namespace RequestBook

namespace Text

/-! ## Bytes -/

theorem foldl_utf8Size (t : Text) (n : Nat) :
    t.foldl (fun n c => n + c.utf8Size) n = n + byteLength t := by
  induction t generalizing n with
  | nil => rfl
  | cons c t ih =>
      rw [byteLength, List.foldl_cons, List.foldl_cons, ih, ih (0 + c.utf8Size)]
      omega

theorem byteLength_append (s t : Text) :
    byteLength (s ++ t) = byteLength s + byteLength t := by
  rw [byteLength, List.foldl_append, foldl_utf8Size, ← byteLength]

theorem eq_nil_of_byteLength {t : Text} (h : byteLength t = 0) : t = [] := by
  cases t with
  | nil => rfl
  | cons c t =>
      rw [byteLength, List.foldl_cons, foldl_utf8Size] at h
      have := c.utf8Size_pos
      omega

/-- The number of bytes before a place in a text tells the place. -/
theorem append_inj_of_byteLength {s t s' t' : Text} (h : s ++ t = s' ++ t')
    (hlength : byteLength s = byteLength s') : s = s' ∧ t = t' := by
  have hs : s <+: s' ++ t' := ⟨t, h⟩
  have hs' : s' <+: s' ++ t' := List.prefix_append s' t'
  have heq : s = s' := by
    rcases List.prefix_or_prefix_of_prefix hs hs' with ⟨more, hmore⟩ | ⟨more, hmore⟩
    · have hnone : byteLength more = 0 := by
        rw [← hmore, byteLength_append] at hlength
        omega
      rw [← hmore, eq_nil_of_byteLength hnone, List.append_nil]
    · have hnone : byteLength more = 0 := by
        rw [← hmore, byteLength_append] at hlength
        omega
      rw [← hmore, eq_nil_of_byteLength hnone, List.append_nil]
  subst heq
  exact ⟨rfl, List.append_cancel_left h⟩

/-! ## Stored lines -/

theorem storedLines_ne_nil (t : Text) : storedLines t ≠ [] := by
  cases t with
  | nil => exact List.cons_ne_nil _ _
  | cons c t =>
      rw [storedLines]
      split
      · exact List.cons_ne_nil _ _
      · split <;> exact List.cons_ne_nil _ _

theorem storedLines_feed (t : Text) : storedLines ('\n' :: t) = ['\n'] :: storedLines t := by
  rw [storedLines]
  cases h : storedLines t with
  | nil => exact absurd h (storedLines_ne_nil t)
  | cons piece pieces => rfl

theorem storedLines_cons_of_ne {c : Char} (hc : c ≠ '\n') (t : Text) :
    storedLines (c :: t) = (c :: (storedLines t).headD []) :: (storedLines t).tail := by
  rw [storedLines]
  cases h : storedLines t with
  | nil => exact absurd h (storedLines_ne_nil t)
  | cons piece pieces => exact if_neg hc

theorem flatten_storedLines (t : Text) : (storedLines t).flatten = t := by
  induction t with
  | nil => rfl
  | cons c t ih =>
      by_cases hc : c = '\n'
      · rw [hc, storedLines_feed, List.flatten_cons, ih]
        rfl
      · rw [storedLines_cons_of_ne hc]
        cases h : storedLines t with
        | nil => exact absurd h (storedLines_ne_nil t)
        | cons piece pieces =>
            rw [h] at ih
            exact congrArg (c :: ·) ih

theorem storedLines_line {line : Text} (h : '\n' ∉ line) (t : Text) :
    storedLines (line ++ '\n' :: t) = (line ++ ['\n']) :: storedLines t := by
  induction line with
  | nil => exact storedLines_feed t
  | cons c line ih =>
      have hc : c ≠ '\n' := (List.ne_of_not_mem_cons h).symm
      rw [List.cons_append, storedLines_cons_of_ne hc, ih (List.not_mem_of_not_mem_cons h)]
      rfl

theorem storedLines_last {line : Text} (h : '\n' ∉ line) : storedLines line = [line] := by
  induction line with
  | nil => rfl
  | cons c line ih =>
      have hc : c ≠ '\n' := (List.ne_of_not_mem_cons h).symm
      rw [storedLines_cons_of_ne hc, ih (List.not_mem_of_not_mem_cons h)]
      rfl

/-- Before a stored line stand as many line feeds as stored lines, and only the
last line has none of its own. -/
theorem count_feed_of_storedLines {t : Text} {before after : List Text} {piece : Text}
    (h : storedLines t = before ++ piece :: after) :
    before.flatten.count '\n' = before.length ∧ ('\n' ∈ piece ∨ after = []) := by
  induction t generalizing before piece with
  | nil =>
      cases before with
      | nil =>
          obtain ⟨-, rfl⟩ := List.cons.inj h
          exact ⟨rfl, .inr rfl⟩
      | cons first before =>
          have hnil := (List.cons.inj h).2
          cases before <;> cases hnil
  | cons c t ih =>
      by_cases hc : c = '\n'
      · rw [hc, storedLines_feed] at h
        cases before with
        | nil =>
            obtain ⟨rfl, -⟩ := List.cons.inj h
            exact ⟨rfl, .inl List.mem_cons_self⟩
        | cons first before =>
            obtain ⟨rfl, hrest⟩ := List.cons.inj h
            obtain ⟨hcount, hpiece⟩ := ih hrest
            refine ⟨?_, hpiece⟩
            rw [List.flatten_cons, List.count_append, hcount, List.length_cons,
              List.count_singleton_self, Nat.add_comm]
      · rw [storedLines_cons_of_ne hc] at h
        cases hstored : storedLines t with
        | nil => exact absurd hstored (storedLines_ne_nil t)
        | cons own pieces =>
            rw [hstored, List.headD_cons, List.tail_cons] at h
            cases before with
            | nil =>
                obtain ⟨rfl, rfl⟩ := List.cons.inj h
                have hown : storedLines t = [] ++ own :: pieces := hstored
                obtain ⟨-, hpiece⟩ := ih hown
                exact ⟨rfl, hpiece.imp_left (List.mem_cons_of_mem c)⟩
            | cons first before =>
                obtain ⟨rfl, rfl⟩ := List.cons.inj h
                have hown : storedLines t = (own :: before) ++ piece :: after := hstored
                obtain ⟨hcount, hpiece⟩ := ih hown
                refine ⟨?_, hpiece⟩
                rw [List.flatten_cons, List.cons_append, List.count_cons_of_ne hc]
                exact hcount

theorem lineBytes?_eq_some_iff {t : Text} {number : Nat} {range : Nat × Nat} :
    lineBytes? t number = some range ↔
      ∃ before piece after, storedLines t = before ++ piece :: after ∧
        before.length + 1 = number ∧
        range = (byteLength before.flatten, byteLength before.flatten + byteLength piece) := by
  cases number with
  | zero =>
      constructor
      · intro h
        cases h
      · rintro ⟨before, piece, after, -, hzero, -⟩
        cases hzero
  | succ index =>
      rw [lineBytes?]
      constructor
      · intro h
        cases hpiece : (storedLines t)[index]? with
        | none =>
            simp only [hpiece] at h
            cases h
        | some piece =>
            simp only [hpiece, Option.some.injEq] at h
            obtain ⟨hlt, hget⟩ := List.getElem?_eq_some_iff.mp hpiece
            refine ⟨(storedLines t).take index, piece, (storedLines t).drop (index + 1), ?_, ?_,
              h.symm⟩
            · rw [← hget, ← List.drop_eq_getElem_cons hlt, List.take_append_drop]
            · rw [List.length_take, Nat.min_eq_left (Nat.le_of_lt hlt)]
      · rintro ⟨before, piece, after, hstored, hlength, rfl⟩
        obtain rfl : before.length = index := by omega
        simp [hstored]

/-! ## Lines of a document in the stored text -/

/-- The character ends a line, if not together with the next one. -/
def isEnd (c : Char) : Bool := c = '\n' || c = '\r'

/-- The pieces of a text cut after each end of a line, which stays with its
piece. No piece is empty. -/
def linePieces : Text → List Text
  | [] => []
  | '\r' :: '\n' :: t => ['\r', '\n'] :: linePieces t
  | c :: t =>
    if isEnd c then [c] :: linePieces t
    else (c :: (linePieces t).headD []) :: (linePieces t).tail

/-- A piece without the end of its line. -/
def withoutEnd (piece : Text) : Text := piece.takeWhile fun c => !isEnd c

/-- The bytes of the line with a number: those of its piece, which is the line
but for its end, and for the mark if it is the first. -/
def Covers (source : Text) (number : Nat) (range : Nat × Nat) : Prop :=
  ∃ before piece after, linePieces source = before ++ piece :: after ∧
    source = before.flatten ++ (piece ++ after.flatten) ∧ before.length + 1 = number ∧
    range = (byteLength before.flatten, byteLength before.flatten + byteLength piece) ∧
    (documentLines source)[before.length]? =
      some (withoutEnd (if before = [] then withoutMark piece else piece))

/-- No line up to the one with a number ends with a lone carriage return, the
end of the text left aside. -/
def FeedsTell (source : Text) (number : Nat) : Prop :=
  ∀ piece ∈ (linePieces source).dropLast.take number, piece.getLast? ≠ some '\r'

instance (source : Text) (number : Nat) : Decidable (FeedsTell source number) :=
  inferInstanceAs (Decidable (∀ piece ∈ (linePieces source).dropLast.take number,
    piece.getLast? ≠ some '\r'))

theorem isEnd_iff {c : Char} : isEnd c = true ↔ c = '\n' ∨ c = '\r' := by
  simp [isEnd]

theorem oneLine_iff {line : Text} : OneLine line ↔ ∀ c ∈ line, (!isEnd c) = true := by
  constructor
  · intro h c hc
    rw [Bool.not_eq_true', Bool.eq_false_iff, Ne, isEnd_iff]
    rintro (rfl | rfl)
    · exact h.2 hc
    · exact h.1 hc
  · intro h
    constructor
    · intro hret
      exact absurd (h _ hret) (by decide)
    · intro hfeed
      exact absurd (h _ hfeed) (by decide)

theorem linePieces_cons_of_oneLine {c : Char} (hc : OneLine [c]) (t : Text) :
    linePieces (c :: t) = (c :: (linePieces t).headD []) :: (linePieces t).tail := by
  have hend : (!isEnd c) = true := oneLine_iff.mp hc c List.mem_cons_self
  rw [linePieces, if_neg (by simpa using hend)]
  rintro - rfl
  exact absurd hend (by decide)

theorem linePieces_last {line : Text} (hline : OneLine line) (hne : line ≠ []) :
    linePieces line = [line] := by
  induction line with
  | nil => exact absurd rfl hne
  | cons c line ih =>
      obtain ⟨hc, hline⟩ := oneLine_cons.mp hline
      rw [linePieces_cons_of_oneLine hc]
      cases line with
      | nil => rfl
      | cons next line =>
          rw [ih hline (List.cons_ne_nil _ _)]
          rfl

/-- A line with its end is the first piece, provided that what comes next does
not make the end longer. -/
theorem linePieces_ended {line : Text} (hline : OneLine line) (e : LineEnd) {rest : Text}
    (h : e = .ret → rest.head? ≠ some '\n') :
    linePieces (line ++ (e.text ++ rest)) = (line ++ e.text) :: linePieces rest := by
  induction line with
  | nil =>
      cases e with
      | feed => cases rest <;> rfl
      | both => rfl
      | ret =>
          cases rest with
          | nil => rfl
          | cons c rest =>
              have hc : c ≠ '\n' := fun heq => h rfl (congrArg some heq)
              show linePieces ('\r' :: c :: rest) = _
              rw [linePieces, if_pos (by decide)]
              · rfl
              · intro _ _ heq
                exact hc (List.cons.inj heq).1
  | cons c line ih =>
      obtain ⟨hc, hline⟩ := oneLine_cons.mp hline
      rw [List.cons_append, linePieces_cons_of_oneLine hc, ih hline]
      rfl

/-- A text is a line without an end, or a line with its end and another text
behind it. -/
theorem lines_induction {motive : Text → Prop} (nil : motive [])
    (last : ∀ line, OneLine line → line ≠ [] → motive line)
    (ended : ∀ line (e : LineEnd) rest, OneLine line → (e = .ret → rest.head? ≠ some '\n') →
      motive rest → motive (line ++ (e.text ++ rest))) (t : Text) : motive t := by
  induction hn : t.length using Nat.strongRecOn generalizing t with
  | ind n ih =>
    have hsplit := List.takeWhile_append_dropWhile (p := fun c => !isEnd c) (l := t)
    have hline : OneLine (t.takeWhile fun c => !isEnd c) :=
      oneLine_iff.mpr fun c hc => List.mem_takeWhile_imp (p := fun c => !isEnd c) hc
    have hstop := List.head?_dropWhile_not (fun c => !isEnd c) t
    generalize (t.takeWhile fun c => !isEnd c) = line at hsplit hline
    generalize (t.dropWhile fun c => !isEnd c) = left at hsplit hstop
    subst hsplit
    rw [List.length_append] at hn
    cases left with
    | nil =>
        rw [List.append_nil]
        by_cases hne : line = []
        · rwa [hne]
        · exact last line hline hne
    | cons c rest =>
        rw [List.length_cons] at hn
        have hc : c = '\n' ∨ c = '\r' := isEnd_iff.mp (by simpa using hstop)
        rcases hc with rfl | rfl
        · exact ended line .feed rest hline (fun h => nomatch h) (ih _ (by omega) rest rfl)
        · by_cases hfeed : rest.head? = some '\n'
          · obtain ⟨rest, rfl⟩ := List.head?_eq_some_iff.mp hfeed
            rw [List.length_cons] at hn
            exact ended line .both rest hline (fun h => nomatch h) (ih _ (by omega) rest rfl)
          · exact ended line .ret rest hline (fun _ => hfeed) (ih _ (by omega) rest rfl)

theorem flatten_linePieces (t : Text) : (linePieces t).flatten = t := by
  induction t using lines_induction with
  | nil => rfl
  | last line hline hne =>
      rw [linePieces_last hline hne, List.flatten_singleton]
  | ended line e rest hline hrest ih =>
      rw [linePieces_ended hline e hrest, List.flatten_cons, ih, List.append_assoc]

theorem withoutEnd_oneLine {line : Text} (hline : OneLine line) (e : LineEnd) :
    withoutEnd line = line ∧ withoutEnd (line ++ e.text) = line := by
  have hall := oneLine_iff.mp hline
  refine ⟨List.takeWhile_eq_self_iff.mpr hall, ?_⟩
  rw [withoutEnd, List.takeWhile_append_of_pos hall]
  cases e <;> simp [LineEnd.text, isEnd]

theorem splitLines_eq_map (t : Text) : splitLines [] t = (linePieces t).map withoutEnd := by
  induction t using lines_induction with
  | nil => rfl
  | last line hline hne =>
      have hlast := splitLines_append hline [] []
      rw [List.append_nil, List.append_nil] at hlast
      rw [hlast, linePieces_last hline hne, List.map_singleton, (withoutEnd_oneLine hline .feed).1,
        splitLines, if_neg (by simpa using hne), List.reverse_reverse]
  | ended line e rest hline hrest ih =>
      rw [splitLines_append hline, List.append_nil, splitLines_end e _ hrest, List.reverse_reverse,
        linePieces_ended hline e hrest, List.map_cons, (withoutEnd_oneLine hline e).2, ih]

theorem shape_of_linePieces {t : Text} {before after : List Text} {piece : Text}
    (h : linePieces t = before ++ piece :: after) :
    ∃ line, OneLine line ∧
      ((∃ e : LineEnd, piece = line ++ e.text) ∨ (piece = line ∧ line ≠ [] ∧ after = [])) := by
  induction t using lines_induction generalizing before with
  | nil => cases before <;> cases h
  | last line hline hne =>
      rw [linePieces_last hline hne] at h
      cases before with
      | nil =>
          obtain ⟨rfl, rfl⟩ := List.cons.inj h
          exact ⟨line, hline, .inr ⟨rfl, hne, rfl⟩⟩
      | cons first before => cases before <;> cases (List.cons.inj h).2
  | ended line e rest hline hrest ih =>
      rw [linePieces_ended hline e hrest] at h
      cases before with
      | nil =>
          obtain ⟨rfl, -⟩ := List.cons.inj h
          exact ⟨line, hline, .inl ⟨e, rfl⟩⟩
      | cons first before => exact ih (List.cons.inj h).2

/-- A piece ends with its only line feed, or it has none; then a lone carriage
return ends it unless it is the last piece. -/
theorem feed_or_return {t : Text} {before after : List Text} {piece : Text}
    (h : linePieces t = before ++ piece :: after) :
    (∃ line, '\n' ∉ line ∧ piece = line ++ ['\n']) ∨
      ('\n' ∉ piece ∧ (after ≠ [] → piece.getLast? = some '\r')) := by
  obtain ⟨line, hline, ⟨e, rfl⟩ | ⟨rfl, -, rfl⟩⟩ := shape_of_linePieces h
  · cases e with
    | feed => exact .inl ⟨line, hline.2, rfl⟩
    | both =>
        refine .inl ⟨line ++ ['\r'], ?_, (List.append_assoc line ['\r'] ['\n']).symm⟩
        simp [hline.2]
    | ret =>
        refine .inr ⟨?_, fun _ => List.getLast?_concat⟩
        simp [LineEnd.text, hline.2]
  · exact .inr ⟨hline.2, fun hafter => absurd rfl hafter⟩

theorem piece_ne_nil {t : Text} {before after : List Text} {piece : Text}
    (h : linePieces t = before ++ piece :: after) : piece ≠ [] := by
  obtain ⟨line, -, ⟨e, rfl⟩ | ⟨rfl, hne, -⟩⟩ := shape_of_linePieces h
  · cases e <;> simp [LineEnd.text]
  · exact hne

theorem eq_of_linePieces {source : Text} {before after : List Text} {piece : Text}
    (h : linePieces source = before ++ piece :: after) :
    source = before.flatten ++ (piece ++ after.flatten) := by
  rw [← flatten_linePieces source, h, List.flatten_append, List.flatten_cons]

theorem linePieces_ne_nil {t : Text} (h : t ≠ []) : linePieces t ≠ [] := by
  intro hnone
  have hflatten := flatten_linePieces t
  rw [hnone] at hflatten
  exact h hflatten.symm

theorem linePieces_withoutMark {source first : Text} {rest : List Text}
    (h : linePieces source = first :: rest) (hne : withoutMark source ≠ []) :
    linePieces (withoutMark source) = withoutMark first :: rest := by
  cases source with
  | nil => exact absurd rfl hne
  | cons c t =>
      by_cases hc : c = byteOrderMark
      · subst hc
        have ht : withoutMark (byteOrderMark :: t) = t := by rw [withoutMark, if_pos rfl]
        rw [ht] at hne ⊢
        rw [linePieces_cons_of_oneLine (by decide)] at h
        obtain ⟨rfl, rfl⟩ := List.cons.inj h
        rw [withoutMark, if_pos rfl]
        cases hpieces : linePieces t with
        | nil => exact absurd hpieces (linePieces_ne_nil hne)
        | cons own pieces => rfl
      · rw [withoutMark, if_neg hc, h]
        cases first with
        | nil => rfl
        | cons c' first =>
            have hflatten := flatten_linePieces (c :: t)
            rw [h] at hflatten
            obtain rfl : c' = c := (List.cons.inj hflatten).1
            rw [withoutMark, if_neg hc]

/-- Each line of a document is the piece in its place, without its end and
without the mark. -/
theorem exists_piece {source : Text} {number : Nat} (hone : 1 ≤ number)
    (hnumber : number ≤ (documentLines source).length) :
    ∃ before piece after, linePieces source = before ++ piece :: after ∧
      before.length + 1 = number ∧
      (documentLines source)[before.length]? =
        some (withoutEnd (if before = [] then withoutMark piece else piece)) := by
  have hne : withoutMark source ≠ [] := by
    intro hnone
    rw [documentLines, hnone] at hnumber
    exact absurd hnumber (by simp [splitLines]; omega)
  have hsource : source ≠ [] := by
    rintro rfl
    exact hne rfl
  cases hpieces : linePieces source with
  | nil => exact absurd hpieces (linePieces_ne_nil hsource)
  | cons first rest =>
      have hlines : documentLines source = (withoutMark first :: rest).map withoutEnd := by
        rw [documentLines, splitLines_eq_map, linePieces_withoutMark hpieces hne]
      rw [hlines, List.length_map, List.length_cons] at hnumber
      obtain _ | index := number
      · omega
      cases index with
      | zero => exact ⟨[], first, rest, rfl, rfl, by rw [hlines]; rfl⟩
      | succ index =>
          have hlt : index < rest.length := by omega
          refine ⟨first :: rest.take index, rest[index], rest.drop (index + 1), ?_, ?_, ?_⟩
          · rw [List.cons_append, ← List.drop_eq_getElem_cons hlt, List.take_append_drop]
          · rw [List.length_cons, List.length_take, Nat.min_eq_left (Nat.le_of_lt hlt)]
          · rw [hlines, if_neg (List.cons_ne_nil _ _), List.length_cons, List.length_take,
              Nat.min_eq_left (Nat.le_of_lt hlt), List.map_cons, List.getElem?_cons_succ,
              List.getElem?_map, List.getElem?_eq_getElem hlt, Option.map_some]

theorem feedsTell_iff {source : Text} {before after : List Text} {piece : Text}
    (h : linePieces source = before ++ piece :: after) :
    FeedsTell source (before.length + 1) ↔
      (∀ own ∈ before, own.getLast? ≠ some '\r') ∧ (after ≠ [] → piece.getLast? ≠ some '\r') := by
  have hfirst : (linePieces source).dropLast.take (before.length + 1) =
      before ++ if after = [] then [] else [piece] := by
    rw [h, List.dropLast_append_of_ne_nil (List.cons_ne_nil _ _), List.take_length_add_append]
    cases after <;> rfl
  rw [FeedsTell, hfirst]
  split
  case isTrue hnone => simp [hnone]
  case isFalse hsome => simp [hsome, or_imp, forall_and]

/-! ## Where the two agree -/

theorem storedLines_flatten {before : List Text}
    (h : ∀ own ∈ before, ∃ line, '\n' ∉ line ∧ own = line ++ ['\n']) (rest : Text) :
    storedLines (before.flatten ++ rest) = before ++ storedLines rest := by
  induction before with
  | nil => rfl
  | cons own before ih =>
      obtain ⟨line, hline, rfl⟩ := h own List.mem_cons_self
      have hbefore := ih fun other hother => h other (List.mem_cons_of_mem _ hother)
      rw [List.flatten_cons, List.append_assoc, List.append_assoc, List.singleton_append,
        storedLines_line hline, hbefore, List.cons_append]

theorem count_flatten_le {pieces : List Text} (h : ∀ own ∈ pieces, own.count '\n' ≤ 1) :
    pieces.flatten.count '\n' ≤ pieces.length := by
  induction pieces with
  | nil => exact Nat.le_refl 0
  | cons own pieces ih =>
      have hown := h own List.mem_cons_self
      have hrest := ih fun other hother => h other (List.mem_cons_of_mem _ hother)
      rw [List.flatten_cons, List.count_append, List.length_cons]
      omega

/-- As many line feeds as pieces with at most one each leave no piece without. -/
theorem feed_mem_of_count {pieces : List Text} (h : ∀ own ∈ pieces, own.count '\n' ≤ 1)
    (hcount : pieces.flatten.count '\n' = pieces.length) : ∀ own ∈ pieces, '\n' ∈ own := by
  intro own hown
  obtain ⟨front, back, rfl⟩ := List.append_of_mem hown
  have hfront := count_flatten_le fun other hother => h other (List.mem_append_left _ hother)
  have hback := count_flatten_le fun other hother =>
    h other (List.mem_append_right _ (List.mem_cons_of_mem _ hother))
  rw [List.flatten_append, List.flatten_cons, List.count_append, List.count_append,
    List.length_append, List.length_cons] at hcount
  exact List.count_pos_iff.mp (by omega)

theorem count_feed_le {t : Text} {before after : List Text} {piece : Text}
    (h : linePieces t = before ++ piece :: after) : piece.count '\n' ≤ 1 := by
  rcases feed_or_return h with ⟨line, hline, rfl⟩ | ⟨hnone, -⟩
  · rw [List.count_append, List.count_eq_zero.mpr hline, List.count_singleton_self]
  · rw [List.count_eq_zero.mpr hnone]
    exact Nat.zero_le 1

theorem linePieces_of_mem_before {t : Text} {before after : List Text} {piece own : Text}
    (h : linePieces t = before ++ piece :: after) (hown : own ∈ before) :
    ∃ front back, linePieces t = front ++ own :: back ∧ back ≠ [] := by
  obtain ⟨front, back, rfl⟩ := List.append_of_mem hown
  refine ⟨front, back ++ piece :: after, ?_, ?_⟩
  · rw [h, List.append_assoc, List.cons_append]
  · exact List.append_ne_nil_of_right_ne_nil _ (List.cons_ne_nil _ _)

theorem storedLines_of_feedsTell {source : Text} {before after : List Text} {piece : Text}
    (h : linePieces source = before ++ piece :: after)
    (hfeeds : FeedsTell source (before.length + 1)) :
    ∃ rest, storedLines source = before ++ piece :: rest := by
  obtain ⟨hbefore, hpiece⟩ := (feedsTell_iff h).mp hfeeds
  have hended : ∀ own ∈ before, ∃ line, '\n' ∉ line ∧ own = line ++ ['\n'] := by
    intro own hown
    obtain ⟨front, back, hpieces, hback⟩ := linePieces_of_mem_before h hown
    rcases feed_or_return hpieces with hline | ⟨-, hreturn⟩
    · exact hline
    · exact absurd (hreturn hback) (hbefore own hown)
  rw [eq_of_linePieces h, storedLines_flatten hended]
  rcases feed_or_return h with ⟨line, hline, rfl⟩ | ⟨hnone, hreturn⟩
  · refine ⟨storedLines after.flatten, ?_⟩
    rw [List.append_assoc, List.singleton_append, storedLines_line hline]
  · obtain rfl : after = [] := by
      by_contra hafter
      exact hpiece hafter (hreturn hafter)
    refine ⟨[], ?_⟩
    rw [List.flatten_nil, List.append_nil, storedLines_last hnone]

theorem feedsTell_of_storedLines {source : Text} {before after rest : List Text} {piece : Text}
    (h : linePieces source = before ++ piece :: after) {front : List Text}
    (hstored : storedLines source = front ++ piece :: rest)
    (hlength : front.length = before.length) (hfront : front.flatten = before.flatten) :
    FeedsTell source (before.length + 1) := by
  obtain ⟨hcount, hpiece⟩ := count_feed_of_storedLines hstored
  rw [hfront, hlength] at hcount
  have hle : ∀ own ∈ before, own.count '\n' ≤ 1 := by
    intro own hown
    obtain ⟨_, _, hpieces, -⟩ := linePieces_of_mem_before h hown
    exact count_feed_le hpieces
  -- a piece with a line feed has it at its end
  have hends : ∀ {own : Text} {left right : List Text},
      linePieces source = left ++ own :: right → '\n' ∈ own → own.getLast? ≠ some '\r' := by
    intro own left right hpieces hmem
    rcases feed_or_return hpieces with ⟨line, -, rfl⟩ | ⟨hnone, -⟩
    · rw [List.getLast?_concat]
      decide
    · exact absurd hmem hnone
  rw [feedsTell_iff h]
  constructor
  · intro own hown
    obtain ⟨_, _, hpieces, -⟩ := linePieces_of_mem_before h hown
    exact hends hpieces (feed_mem_of_count hle hcount own hown)
  · intro hafter
    rcases hpiece with hmem | rfl
    · exact hends h hmem
    · -- nothing is stored behind the piece, so it is the last one of both
      exfalso
      have hsource := (flatten_storedLines source).trans (flatten_linePieces source).symm
      rw [hstored, h, List.flatten_append, List.flatten_append, hfront] at hsource
      have hnone := List.append_cancel_left (List.append_cancel_left hsource)
      obtain ⟨next, after, rfl⟩ := List.exists_cons_of_ne_nil hafter
      have hnext : linePieces source = (before ++ [piece]) ++ next :: after := by
        rw [h, List.append_assoc, List.singleton_append]
      rw [List.flatten_nil, List.flatten_cons] at hnone
      exact piece_ne_nil hnext (List.append_eq_nil_iff.mp hnone.symm).1

theorem covers_iff {source : Text} {number : Nat} (hone : 1 ≤ number)
    (hnumber : number ≤ (documentLines source).length) :
    (∃ range, lineBytes? source number = some range ∧ Covers source number range) ↔
      FeedsTell source number := by
  obtain ⟨before, piece, after, hpieces, rfl, hline⟩ := exists_piece hone hnumber
  have hsource := eq_of_linePieces hpieces
  constructor
  · rintro ⟨range, hlabel, before', piece', after', hpieces', -, hlength', rfl, -⟩
    obtain ⟨rfl, hrest⟩ := List.append_inj (hpieces.symm.trans hpieces') (by omega)
    obtain ⟨rfl, rfl⟩ := List.cons.inj hrest
    obtain ⟨front, own, rest, hstored, hlength, hrange⟩ := lineBytes?_eq_some_iff.mp hlabel
    obtain ⟨hstart, hend⟩ := Prod.mk.inj hrange
    have hflatten := flatten_storedLines source
    rw [hstored, List.flatten_append, List.flatten_cons] at hflatten
    obtain ⟨hfront, hown⟩ := append_inj_of_byteLength (hflatten.trans hsource) hstart.symm
    obtain ⟨rfl, -⟩ := append_inj_of_byteLength hown (by omega)
    exact feedsTell_of_storedLines hpieces hstored (by omega) hfront
  · intro hfeeds
    obtain ⟨rest, hstored⟩ := storedLines_of_feedsTell hpieces hfeeds
    exact ⟨_, lineBytes?_eq_some_iff.mpr ⟨before, piece, rest, hstored, rfl, rfl⟩,
      before, piece, after, hpieces, hsource, rfl, rfl, hline⟩

/-- Where every carriage return has a line feed behind it, feeds tell all lines. -/
theorem feedsTell_of_paired {source : Text}
    (h : ∀ before after, source = before ++ '\r' :: after → after.head? = some '\n')
    (number : Nat) : FeedsTell source number := by
  have hall : ∀ piece ∈ linePieces source, piece.getLast? ≠ some '\r' := by
    induction source using lines_induction with
    | nil => exact fun _ hpiece => absurd hpiece List.not_mem_nil
    | last line hline hne =>
        intro piece hpiece hlast
        rw [linePieces_last hline hne] at hpiece
        rw [List.mem_singleton.mp hpiece] at hlast
        exact hline.1 (List.mem_of_getLast? hlast)
    | ended line e rest hline hrest ih =>
        intro piece hpiece
        rw [linePieces_ended hline e hrest] at hpiece
        rcases List.mem_cons.mp hpiece with rfl | hmem
        · cases e with
          | feed | both => simp [LineEnd.text]
          | ret => exact absurd (h line rest rfl) (hrest rfl)
        · refine ih (fun before after heq => h (line ++ (e.text ++ before)) after ?_) piece hmem
          rw [heq, List.append_assoc, List.append_assoc]
  intro piece hpiece
  exact hall piece (List.dropLast_subset _ (List.mem_of_mem_take hpiece))

end Text

/-! ## Diagnostics -/

theorem label_covers_of_paired {source : Text}
    (h : ∀ before after, source = before ++ '\r' :: after → after.head? = some '\n')
    {d : Diagnostic} (hd : d ∈ (Book.compile source).diagnostics) :
    ∃ range, d.label? source = some range ∧ Text.Covers source d.line range := by
  obtain ⟨hone, hlength⟩ := line_bounds_of_mem_compile hd
  exact (Text.covers_iff hone hlength).mpr (Text.feedsTell_of_paired h d.line)

/-- A diagnostic has a label on its own line exactly if no line up to that one
ends with a lone carriage return that something follows. -/
theorem label_covers_iff (source : Text) {d : Diagnostic}
    (hd : d ∈ (Book.compile source).diagnostics) :
    (∃ range, d.label? source = some range ∧ Text.Covers source d.line range) ↔
      Text.FeedsTell source d.line := by
  obtain ⟨hone, hlength⟩ := line_bounds_of_mem_compile hd
  exact Text.covers_iff hone hlength

/-- The line with the fence may be the last one and end as it likes. -/
theorem label_covers_last_line :
    let source : Text := "# A\r\n\x60\x60\x60\r".toList
    let d : Diagnostic := ⟨.unterminatedFence, 2⟩
    d ∈ (Book.compile source).diagnostics ∧
      ∃ range, d.label? source = some range ∧ Text.Covers source d.line range := by
  intro source d
  have hd : d ∈ (Book.compile source).diagnostics := by decide +kernel
  exact ⟨hd, (label_covers_iff source hd).mpr (by decide +kernel)⟩

/-- Behind a lone carriage return the label of a fence on the second line lies
on the third one, and with no line feed at all there is none. -/
theorem label_behind_lone_return :
    let moved : Text := "# A\r\x60\x60\x60\nx\n".toList
    let bare : Text := "# A\r\x60\x60\x60\rx\r".toList
    let d : Diagnostic := ⟨.unterminatedFence, 2⟩
    d ∈ (Book.compile moved).diagnostics ∧ d.label? moved = some (8, 10) ∧
      (¬ ∃ range, d.label? moved = some range ∧ Text.Covers moved d.line range) ∧
      d ∈ (Book.compile bare).diagnostics ∧ d.label? bare = none := by
  intro moved bare d
  refine ⟨by decide +kernel, by decide +kernel, ?_, by decide +kernel, by decide +kernel⟩
  intro hcovers
  have hfeeds := (Text.covers_iff (by decide) (by decide +kernel)).mp hcovers
  exact absurd hfeeds (by decide +kernel)

end RequestBook
