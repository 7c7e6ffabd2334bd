import RequestBook.Grammar
import RequestBook.Proofs.Trim

/-!
# What the standard grammar reads, said without its constructs

Four constructs share one position in the lines and each has a stop rule of
its own. This file says once and for all what comes of that, so that nothing
further on opens a construct again: the first line of a block gives its shape
(`Shape.of`) and its kind (`kindFrom`), the lines that are left say how many
of them the block takes (`extent?`), and its text is a function of the lines
taken (`contentFrom`). A fence that nothing closes has no extent, and that is
the only way in which a line that is not blank makes no block.

`Reading` is a run of the standard grammar as a relation, one rule for each
thing that can happen at a position, and `reading_iff` says that the turns of
the grammar are its only run. What holds of all documents is then proved by
induction over a reading, in four cases.
-/

namespace RequestBook

/-! ## Shapes -/

/-- The four ways to begin a block. -/
inductive Shape where
  | heading
  | quote
  | fence
  | paragraph
  deriving DecidableEq, Repr

/-- The shape that a line begins. The mark at its head decides, and a line
with no mark begins a paragraph. -/
def Shape.of (line : Text) : Shape :=
  if [headingMark] <+: Text.trimStart line then .heading
  else if [quoteMark] <+: Text.trimStart line then .quote
  else if fenceMark <+: Text.trimStart line then .fence
  else .paragraph

/-- The kind of the block that a line begins. -/
def kindFrom (first : Text) : Block.Kind :=
  match Shape.of first with
  | .heading => .heading ((Text.trim first).takeWhile (· = headingMark)).length 1
  | .quote => .quote
  | .fence => .fence (Text.trim ((Text.trim first).drop fenceMark.length))
  | .paragraph => .paragraph

/-- What a quoted line says: the line behind its mark and one space, without
the blanks at its end. -/
def quotedText (line : Text) : Text :=
  let rest := (Text.trimStart line).drop 1
  Text.trimEnd (if [' '] <+: rest then rest.drop 1 else rest)

/-- The text of the block that was built from some lines. -/
def contentFrom : (taken : List Text) → Text
  | [] => []
  | first :: rest =>
    match Shape.of first with
    | .heading => Text.trimStart ((Text.trim first).dropWhile (· = headingMark))
    | .quote => Text.join [' '] (quotedText first :: rest.map quotedText)
    | .fence => Text.join ['\n'] rest.dropLast
    | .paragraph => Text.trim (first ++ rest.flatten)

/-- How many lines belong to the block that begins with the first of these:
one for a heading, the quoted lines in a row, the lines up to the next one
that is only the fence mark and that one too, or the lines up to a blank one.
A fence that is never closed is no block. -/
def extent? : (left : List Text) → Option Nat
  | [] => none
  | first :: rest =>
    match Shape.of first with
    | .heading => some 1
    | .quote => some ((rest.takeWhile isQuoted).length + 1)
    | .fence =>
      let body := rest.takeWhile fun line => !isFenceEnd line
      if body.length < rest.length then some (body.length + 2) else none
    | .paragraph => some ((rest.takeWhile fun line => !Text.allBlank line).length + 1)

/-- The block with a number that was built from the lines after a position. -/
def Block.ofLines (position id : Nat) (taken : List Text) : Block where
  id := id
  kind := kindFrom (taken.headD [])
  content := contentFrom taken
  lines := List.range' (position + 1) taken.length

theorem Shape.of_eq_heading_iff {line : Text} :
    Shape.of line = .heading ↔ [headingMark] <+: Text.trimStart line := by
  rw [Shape.of]
  split
  · next h => exact ⟨fun _ => h, fun _ => rfl⟩
  · next h =>
      refine ⟨fun hs => ?_, fun hp => absurd hp h⟩
      split at hs
      · cases hs
      · split at hs <;> cases hs

/-- The marks differ in their first character, so their order decides
nothing. -/
theorem Shape.of_eq_quote_iff {line : Text} :
    Shape.of line = .quote ↔ [quoteMark] <+: Text.trimStart line := by
  rw [Shape.of]
  cases Text.trimStart line with
  | nil => simp [fenceMark]
  | cons c rest =>
      by_cases hc : quoteMark = c
      · subst hc
        simp [headingMark, quoteMark]
      · simp only [List.cons_prefix_cons, hc, false_and, if_false]
        split
        · simp
        · split <;> simp

theorem Shape.of_eq_fence_iff {line : Text} :
    Shape.of line = .fence ↔ fenceMark <+: Text.trimStart line := by
  rw [Shape.of]
  cases Text.trimStart line with
  | nil => simp [fenceMark]
  | cons c rest =>
      by_cases hc : '\x60' = c
      · subst hc
        simp [headingMark, quoteMark]
      · have hno : ¬ fenceMark <+: c :: rest := by
          rw [fenceMark, List.cons_prefix_cons]
          exact fun h => hc h.1
        rw [if_neg hno]
        split
        · simp [hno]
        · split <;> simp [hno]

theorem headingMark_full : ∀ c ∈ [headingMark], Text.isBlank c = false := by
  intro c hc
  rw [List.mem_singleton.mp hc]
  rfl

theorem quoteMark_full : ∀ c ∈ [quoteMark], Text.isBlank c = false := by
  intro c hc
  rw [List.mem_singleton.mp hc]
  rfl

theorem fenceMark_full : ∀ c ∈ fenceMark, Text.isBlank c = false := by
  intro c hc
  have hmark : c = '\x60' := by simpa [fenceMark] using hc
  rw [hmark]
  rfl

theorem isQuoted_iff {line : Text} : isQuoted line = true ↔ Shape.of line = .quote := by
  rw [isQuoted, Text.startsWith_iff, Shape.of_eq_quote_iff]

/-! ## The extent of a block -/

/-- A block has at least its first line and at most the lines there are. -/
theorem extent?_bounds {left : List Text} {count : Nat}
    (h : extent? left = some count) : 0 < count ∧ count ≤ left.length := by
  cases left with
  | nil => cases h
  | cons first rest =>
      have htake : ∀ p : Text → Bool, (rest.takeWhile p).length ≤ rest.length :=
        fun p => (List.takeWhile_prefix p).length_le
      rw [List.length_cons]
      simp only [extent?] at h
      split at h
      · cases h
        omega
      · cases h
        have := htake isQuoted
        omega
      · split at h
        · cases h
          omega
        · cases h
      · cases h
        have := htake fun line => !Text.allBlank line
        omega

/-- Only a fence has no extent, and only when no later line closes it. -/
theorem extent?_eq_none_iff {first : Text} {rest : List Text} :
    extent? (first :: rest) = none ↔
      Shape.of first = .fence ∧ ∀ later ∈ rest, isFenceEnd later = false := by
  simp only [extent?]
  cases Shape.of first with
  | heading | quote | paragraph => simp
  | fence =>
      have hpre := List.takeWhile_prefix (fun line => !isFenceEnd line) (l := rest)
      have hiff : rest.takeWhile (fun line => !isFenceEnd line) = rest ↔
          ∀ later ∈ rest, isFenceEnd later = false := by
        rw [List.takeWhile_eq_self_iff]
        simp
      rw [← hiff]
      simp only [true_and, ite_eq_right_iff, reduceCtorEq, imp_false, Nat.not_lt]
      exact ⟨hpre.eq_of_length_le, fun h => by rw [h]⟩

/-! ## The constructs at their first line

Each lemma opens one construct, at a position where a line of its own shape
stands, and none is opened after this section. -/

/-- The answer of the standard grammar at a position with a line that is not
blank, and where it reads on. -/
def answerAt (lines : List Text) (position id : Nat) : Except Diagnostic Block × Nat :=
  match extent? (lines.drop position) with
  | some count =>
    (.ok (.ofLines position id ((lines.drop position).take count)), position + count)
  | none => (.error ⟨.unterminatedFence, position + 1⟩, position + 1)

theorem unquoted_eq {line : Text} (h : isQuoted line = true) :
    unquoted line = quotedText line := by
  rw [isQuoted, Text.startsWith_iff] at h
  obtain ⟨rest, hrest⟩ := h
  have hafter : ∀ mark t : Text,
      (Text.after? mark t).getD t = if mark <+: t then t.drop mark.length else t := by
    intro mark t
    split
    · next hpre =>
        obtain ⟨r, rfl⟩ := hpre
        rw [Text.after?_eq_some_iff.mpr rfl, List.drop_left]
        rfl
    · next hpre =>
        rw [Text.after?_eq_none_iff.mpr hpre]
        rfl
  rw [unquoted, quotedText]
  simp only [hafter]
  rw [← hrest, if_pos (List.prefix_append _ _)]
  rfl

theorem Text.join_nil (pieces : List Text) : Text.join [] pieces = pieces.flatten := by
  rw [Text.join]
  induction pieces with
  | nil => rfl
  | cons piece pieces ih =>
      cases pieces with
      | nil => simp
      | cons next pieces => rw [List.intercalate_cons_cons, ih]; simp

theorem take_length_takeWhile {α : Type} (p : α → Bool) (l : List α) :
    l.take (l.takeWhile p).length = l.takeWhile p :=
  (List.prefix_iff_eq_take.mp (List.takeWhile_prefix p)).symm

/-- A run ends where the first element behind it does not belong. -/
theorem takeWhile_append_stop {α : Type} {p : α → Bool} {inside rest : List α}
    (hinside : ∀ x ∈ inside, p x = true) (hstop : ∀ x, rest.head? = some x → p x = false) :
    (inside ++ rest).takeWhile p = inside := by
  rw [List.takeWhile_append_of_pos hinside]
  cases rest with
  | nil => rw [List.takeWhile_nil, List.append_nil]
  | cons x rest =>
      rw [List.takeWhile_cons_of_neg (by rw [hstop x rfl]; exact Bool.false_ne_true),
        List.append_nil]

section Constructs

variable {lines : List Text} {position id : Nat} {first : Text} {rest : List Text}

theorem getElem?_of_drop (hleft : lines.drop position = first :: rest) :
    lines[position]? = some first := by
  rw [← List.head?_drop, hleft]
  rfl

theorem drop_succ_of_drop (hleft : lines.drop position = first :: rest) :
    lines.drop (position + 1) = rest := by
  rw [← List.tail_drop, hleft]
  rfl

theorem length_of_drop (hleft : lines.drop position = first :: rest) :
    lines.length = position + 1 + rest.length := by
  have hlen := congrArg List.length hleft
  rw [List.length_drop, List.length_cons] at hlen
  omega

theorem heading_consume (hleft : lines.drop position = first :: rest)
    (hs : Shape.of first = .heading) :
    heading.consume lines position id = answerAt lines position id := by
  have hmark : Text.startsWith [headingMark] (Text.trim first) = true := by
    rw [Text.startsWith_trim headingMark_full, Text.startsWith_iff, ← Shape.of_eq_heading_iff]
    exact hs
  have hdrop : ((Text.trim first).takeWhile (· = headingMark) ++
      (Text.trim first).dropWhile (· = headingMark)).drop
        ((Text.trim first).takeWhile (· = headingMark)).length =
      (Text.trim first).dropWhile (· = headingMark) := List.drop_left
  rw [List.takeWhile_append_dropWhile] at hdrop
  rw [answerAt, hleft]
  simp only [extent?, hs, heading, getElem?_of_drop hleft, hmark, if_true, Block.ofLines,
    List.take_succ_cons, List.take_zero, List.headD_cons, kindFrom, contentFrom,
    headingLevel, Text.trim_trim, List.length_singleton, List.range'_one, hdrop]

theorem quote_consume (hleft : lines.drop position = first :: rest)
    (hs : Shape.of first = .quote) :
    quote.consume lines position id = answerAt lines position id := by
  have hq : isQuoted first = true := isQuoted_iff.mpr hs
  have htexts : (rest.takeWhile isQuoted).map unquoted =
      (rest.takeWhile isQuoted).map quotedText :=
    List.map_congr_left fun line hline => unquoted_eq (List.mem_takeWhile_imp hline)
  rw [answerAt, hleft]
  simp only [extent?, hs, quote, gather, hleft, Bool.not_not, hq, List.takeWhile_cons_of_pos,
    List.length_cons, List.map_cons, List.range'_succ, List.isEmpty_cons,
    Bool.false_eq_true, if_false, Block.ofLines, List.take_succ_cons,
    take_length_takeWhile, List.headD_cons, kindFrom, contentFrom, unquoted_eq hq, htexts]

theorem fence_consume (hleft : lines.drop position = first :: rest)
    (hs : Shape.of first = .fence) :
    fence.consume lines position id = answerAt lines position id := by
  have hmark : Text.startsWith fenceMark (Text.trim first) = true := by
    rw [Text.startsWith_trim fenceMark_full, Text.startsWith_iff, ← Shape.of_eq_fence_iff]
    exact hs
  obtain ⟨info, hinfo⟩ := Text.startsWith_iff.mp hmark
  have hafter := Text.after?_eq_some_iff.mpr hinfo.symm
  have hdrop : (Text.trim first).drop fenceMark.length = info := by
    rw [← hinfo, List.drop_left]
  have hlen := length_of_drop hleft
  rw [answerAt, hleft]
  simp only [fence, getElem?_of_drop hleft, Option.bind_some, hafter, gather,
    drop_succ_of_drop hleft, extent?, hs, hlen, Nat.add_lt_add_iff_left]
  by_cases hclosed : (rest.takeWhile fun line => !isFenceEnd line).length < rest.length
  · have htake := take_length_takeWhile (fun line => !isFenceEnd line) rest
    generalize (rest.takeWhile fun line => !isFenceEnd line) = body at hclosed htake
    have hbody : (rest.take (body.length + 1)).dropLast = body := by
      rw [List.dropLast_eq_take, List.length_take, Nat.min_eq_left (by omega : _ + 1 ≤ _),
        List.take_take, Nat.add_sub_cancel, Nat.min_eq_left (Nat.le_succ _), htake]
    have hrange : List.range' (position + 1) (body.length + 2) =
        (position + 1) :: List.range' (position + 1 + 1) body.length
          ++ [position + 1 + body.length + 1] := by
      rw [List.range'_succ, List.range'_1_concat, List.cons_append]
      congr 3
      omega
    have hcount : (first :: rest.take (body.length + 1)).length = body.length + 2 := by
      rw [List.length_cons, List.length_take]
      omega
    have hnext : position + 1 + body.length + 1 = position + (body.length + 2) := by omega
    simp only [if_pos hclosed, Block.ofLines, List.take_succ_cons, List.headD_cons, kindFrom,
      contentFrom, hs, hdrop, hbody, List.map_id', hcount, hrange, hnext]
  · simp only [if_neg hclosed]

theorem paragraph_consume (hleft : lines.drop position = first :: rest)
    (hfull : Text.allBlank first = false) (hs : Shape.of first = .paragraph) :
    paragraph.consume lines position id = answerAt lines position id := by
  rw [answerAt, hleft]
  simp only [extent?, hs, paragraph, gather, hleft, hfull, Bool.not_false,
    List.takeWhile_cons_of_pos, List.length_cons, List.map_id', List.range'_succ,
    List.isEmpty_cons, Bool.false_eq_true, if_false, Block.ofLines, List.take_succ_cons,
    take_length_takeWhile, List.headD_cons, kindFrom, contentFrom, Text.join_nil,
    List.flatten_cons]

end Constructs

/-- The construct that a line calls for is that of its shape. The grammar asks
with the line trimmed at both ends. -/
theorem constructFor_trim (line : Text) :
    Grammar.standard.constructFor (Text.trim line) =
      match Shape.of line with
      | .heading => heading
      | .quote => quote
      | .fence => fence
      | .paragraph => paragraph := by
  have hh : heading.opens (Text.trim line) = decide ([headingMark] <+: Text.trimStart line) := by
    rw [Bool.eq_iff_iff, decide_eq_true_iff, ← Text.startsWith_iff]
    simp only [heading, Text.trimStart_trim]
    rw [Text.startsWith_trim headingMark_full]
  have hq : quote.opens (Text.trim line) = decide ([quoteMark] <+: Text.trimStart line) := by
    rw [Bool.eq_iff_iff, decide_eq_true_iff, ← Text.startsWith_iff]
    simp only [quote, isQuoted, Text.trimStart_trim]
    rw [Text.startsWith_trim quoteMark_full]
  have hf : fence.opens (Text.trim line) = decide (fenceMark <+: Text.trimStart line) := by
    rw [Bool.eq_iff_iff, decide_eq_true_iff, ← Text.startsWith_iff]
    simp only [fence, Text.trimStart_trim]
    rw [Text.startsWith_trim fenceMark_full]
  rw [Grammar.constructFor, Grammar.standard, Shape.of]
  simp only [List.find?_cons, List.find?_nil, hh, hq, hf]
  by_cases h1 : [headingMark] <+: Text.trimStart line
  · simp [h1]
  · by_cases h2 : [quoteMark] <+: Text.trimStart line
    · simp [h1, h2]
    · by_cases h3 : fenceMark <+: Text.trimStart line
      · simp [h1, h2, h3]
      · simp [h1, h2, h3]

/-- What the construct called for answers at a line that is not blank. -/
theorem consume_eq_answerAt {lines : List Text} {position : Nat} {line : Text}
    (hline : lines[position]? = some line) (hfull : Text.allBlank line = false) (id : Nat) :
    (Grammar.standard.constructFor (Text.trim line)).consume lines position id =
      answerAt lines position id := by
  obtain ⟨hlt, rfl⟩ := List.getElem?_eq_some_iff.mp hline
  have hleft := List.drop_eq_getElem_cons hlt
  rw [constructFor_trim]
  cases hs : Shape.of lines[position] with
  | heading => exact heading_consume hleft hs
  | quote => exact quote_consume hleft hs
  | fence => exact fence_consume hleft hs
  | paragraph => exact paragraph_consume hleft hfull hs

/-! ## Readings -/

/-- A run of the standard grammar over some lines, from a position on and with
a number for the next block: the turns it takes. -/
inductive Reading (lines : List Text) : (position id : Nat) → List Turn → Prop
  | done {position id : Nat} (hend : lines.length ≤ position) :
      Reading lines position id []
  | blank {position id : Nat} {turns : List Turn} {line : Text}
      (hline : lines[position]? = some line) (hblank : Text.allBlank line = true)
      (rest : Reading lines (position + 1) id turns) :
      Reading lines position id turns
  | block {position id count : Nat} {turns : List Turn} {line : Text}
      (hline : lines[position]? = some line) (hfull : Text.allBlank line = false)
      (hextent : extent? (lines.drop position) = some count)
      (rest : Reading lines (position + count) (id + 1) turns) :
      Reading lines position id
        (⟨position, id, .ok (.ofLines position id ((lines.drop position).take count))⟩
          :: turns)
  | fault {position id : Nat} {turns : List Turn} {line : Text}
      (hline : lines[position]? = some line) (hfull : Text.allBlank line = false)
      (hextent : extent? (lines.drop position) = none)
      (rest : Reading lines (position + 1) (id + 1) turns) :
      Reading lines position id
        (⟨position, id, .error ⟨.unterminatedFence, position + 1⟩⟩ :: turns)

section Turns

variable {grammar : Grammar} {lines : List Text} {position id : Nat} {line : Text}

theorem turnsFrom_done (hend : lines.length ≤ position) :
    grammar.turnsFrom lines position id = [] := by
  rw [Grammar.turnsFrom, dif_neg (by omega)]

theorem turnsFrom_blank (hline : lines[position]? = some line)
    (hblank : Text.allBlank line = true) :
    grammar.turnsFrom lines position id = grammar.turnsFrom lines (position + 1) id := by
  obtain ⟨hlt, rfl⟩ := List.getElem?_eq_some_iff.mp hline
  rw [Grammar.turnsFrom, dif_pos hlt]
  rw [if_pos (by rw [Text.trim_eq_nil_iff.mpr hblank]; rfl)]

theorem turnsFrom_asked (hline : lines[position]? = some line)
    (hfull : Text.allBlank line = false) :
    grammar.turnsFrom lines position id =
      ⟨position, id,
        ((grammar.constructFor (Text.trim line)).consume lines position id).1⟩
        :: grammar.turnsFrom lines
          (max ((grammar.constructFor (Text.trim line)).consume lines position id).2
            (position + 1)) (id + 1) := by
  obtain ⟨hlt, rfl⟩ := List.getElem?_eq_some_iff.mp hline
  rw [Grammar.turnsFrom, dif_pos hlt]
  simp only [Text.isEmpty_trim hfull, Bool.false_eq_true, if_false]

theorem turnsFrom_full (hline : lines[position]? = some line)
    (hfull : Text.allBlank line = false) :
    Grammar.standard.turnsFrom lines position id =
      ⟨position, id, (answerAt lines position id).1⟩
        :: Grammar.standard.turnsFrom lines
          (max (answerAt lines position id).2 (position + 1)) (id + 1) := by
  rw [turnsFrom_asked hline hfull, consume_eq_answerAt hline hfull]

end Turns

theorem Reading.eq_turnsFrom {lines : List Text} {position id : Nat} {turns : List Turn}
    (h : Reading lines position id turns) :
    turns = Grammar.standard.turnsFrom lines position id := by
  induction h with
  | done hend => rw [turnsFrom_done hend]
  | blank hline hblank rest ih => rw [turnsFrom_blank hline hblank, ih]
  | block hline hfull hextent rest ih =>
      have hpos := (extent?_bounds hextent).1
      rw [turnsFrom_full hline hfull, answerAt, hextent, ih]
      simp only []
      rw [Nat.max_eq_left (by omega)]
  | fault hline hfull hextent rest ih =>
      rw [turnsFrom_full hline hfull, answerAt, hextent, ih]
      simp only []
      rw [Nat.max_self]

/-- The grammar has a run from everywhere. The induction is on the lines that
are left, as its own recursion is. -/
theorem reading_turnsFrom (lines : List Text) (position id : Nat) :
    Reading lines position id (Grammar.standard.turnsFrom lines position id) := by
  induction hn : lines.length - position using Nat.strongRecOn
    generalizing position id with
  | ind n ih =>
    rcases Nat.lt_or_ge position lines.length with hlt | hge
    · have hline : lines[position]? = some lines[position] := List.getElem?_eq_getElem hlt
      cases hb : Text.allBlank lines[position] with
      | true =>
          rw [turnsFrom_blank hline hb]
          exact .blank hline hb (ih _ (by omega) _ _ rfl)
      | false =>
          rw [turnsFrom_full hline hb, answerAt]
          cases he : extent? (lines.drop position) with
          | none =>
              simp only []
              rw [Nat.max_self]
              exact .fault hline hb he (ih _ (by omega) _ _ rfl)
          | some count =>
              have hpos := (extent?_bounds he).1
              simp only []
              rw [Nat.max_eq_left (by omega)]
              exact .block hline hb he (ih _ (by omega) _ _ rfl)
    · rw [turnsFrom_done hge]
      exact .done hge

/-- The turns of the grammar are its one run. -/
theorem reading_iff {lines : List Text} {position id : Nat} {turns : List Turn} :
    Reading lines position id turns ↔
      turns = Grammar.standard.turnsFrom lines position id :=
  ⟨Reading.eq_turnsFrom, fun h => h ▸ reading_turnsFrom lines position id⟩

/-- Every turn stands at a line that is not blank and answers what that
position calls for. -/
theorem Reading.mem {lines : List Text} {position id : Nat} {turns : List Turn}
    (h : Reading lines position id turns) {turn : Turn} (hturn : turn ∈ turns) :
    position ≤ turn.position ∧ id ≤ turn.id ∧
      (∃ line, lines[turn.position]? = some line ∧ Text.allBlank line = false) ∧
      turn.answer = (answerAt lines turn.position turn.id).1 := by
  induction h with
  | done hend => cases hturn
  | blank hline hblank rest ih =>
      obtain ⟨hpos, hid, hstand⟩ := ih hturn
      exact ⟨by omega, hid, hstand⟩
  | block hline hfull hextent rest ih =>
      rcases List.mem_cons.mp hturn with rfl | hturn
      · exact ⟨Nat.le_refl _, Nat.le_refl _, ⟨_, hline, hfull⟩, by rw [answerAt, hextent]⟩
      · obtain ⟨hpos, hid, hstand⟩ := ih hturn
        exact ⟨by omega, by omega, hstand⟩
  | fault hline hfull hextent rest ih =>
      rcases List.mem_cons.mp hturn with rfl | hturn
      · exact ⟨Nat.le_refl _, Nat.le_refl _, ⟨_, hline, hfull⟩, by rw [answerAt, hextent]⟩
      · obtain ⟨hpos, hid, hstand⟩ := ih hturn
        exact ⟨by omega, by omega, hstand⟩

/-- A turn that made a block made it from the lines at its position, with its
own number. -/
theorem Reading.block_eq {lines : List Text} {position id : Nat} {turns : List Turn}
    (h : Reading lines position id turns) {turn : Turn} (hturn : turn ∈ turns) {b : Block}
    (hb : turn.answer = .ok b) :
    ∃ count, extent? (lines.drop turn.position) = some count ∧
      b = .ofLines turn.position turn.id ((lines.drop turn.position).take count) := by
  obtain ⟨_, _, _, hanswer⟩ := h.mem hturn
  rw [hb, answerAt] at hanswer
  cases hextent : extent? (lines.drop turn.position) with
  | none => rw [hextent] at hanswer; cases hanswer
  | some count =>
      rw [hextent] at hanswer
      exact ⟨count, rfl, Except.ok.inj hanswer⟩

end RequestBook
