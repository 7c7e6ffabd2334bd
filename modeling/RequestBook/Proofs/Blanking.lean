import RequestBook.Proofs.Moving
import RequestBook.Proofs.Renumbering

/-!
# A fence that is never closed is a blank line

A construct that fails has looked ahead to the end of the document and has used
up a number before it gives up. Neither is seen afterwards. A document in which
every line named by a diagnostic is emptied has the same blocks on the same
lines, hanging the same way and asking for the same requests; only the numbers
close up (`read_blanked`).

Two things decide it. What a block takes is settled by its own lines and by the
next one being blank or what it was (`extent?_of_agree`), and a line that a
diagnostic names is in no block. So emptying such lines takes the faults out of
a reading and leaves its blocks, one after the other (`Reading.blanked`).
-/

namespace RequestBook

/-! ## Where a run of lines stops -/

section TakeWhile

variable {α : Type} {p : α → Bool} {l l' : List α}

theorem getElem?_length_takeWhile {x : α} (h : l[(l.takeWhile p).length]? = some x) :
    p x = false := by
  have hstop := List.head?_dropWhile_not p l
  have hdrop : l.drop (l.takeWhile p).length = l.dropWhile p := by
    have happ := List.takeWhile_append_dropWhile (p := p) (l := l)
    calc l.drop (l.takeWhile p).length
        = (l.takeWhile p ++ l.dropWhile p).drop (l.takeWhile p).length := by rw [happ]
      _ = l.dropWhile p := List.drop_left
  rw [← hdrop, List.head?_drop, h] at hstop
  simpa using hstop

/-- A run is the same in a list that agrees on it and does not go on. -/
theorem takeWhile_of_agree (htake : l'.take (l.takeWhile p).length = l.takeWhile p)
    (hstop : ∀ x, l'[(l.takeWhile p).length]? = some x → p x = false) :
    l'.takeWhile p = l.takeWhile p := by
  rw [← List.take_append_drop (l.takeWhile p).length l', htake]
  exact takeWhile_append_stop (fun x hx => List.mem_takeWhile_imp hx)
    fun x hx => hstop x (by rwa [List.head?_drop] at hx)

/-- A run is the same in a list that agrees on it and on the element behind. -/
theorem takeWhile_of_agree_next (htake : l'.take ((l.takeWhile p).length + 1) =
    l.take ((l.takeWhile p).length + 1)) : l'.takeWhile p = l.takeWhile p := by
  have hrun := congrArg (List.take (l.takeWhile p).length) htake
  rw [List.take_take, List.take_take, Nat.min_eq_left (Nat.le_succ _),
    take_length_takeWhile] at hrun
  have hnext := congrArg (·[(l.takeWhile p).length]?) htake
  simp only [List.getElem?_take_of_lt (Nat.lt_succ_self _)] at hnext
  exact takeWhile_of_agree hrun fun x hx => getElem?_length_takeWhile (hnext ▸ hx)

end TakeWhile

theorem isQuoted_of_allBlank {line : Text} (h : Text.allBlank line = true) :
    isQuoted line = false := by
  rw [isQuoted, Text.trimStart_eq_nil_iff.mpr h]
  rfl

/-- What a block takes is settled by the lines that it takes and by the next
one, which may be blank instead of what it was. -/
theorem extent?_of_agree {left left' : List Text} {count : Nat} (h : extent? left = some count)
    (htake : left'.take count = left.take count)
    (hnext : ∀ line, left'[count]? = some line →
      Text.allBlank line = true ∨ left[count]? = some line) :
    extent? left' = some count := by
  cases left with
  | nil => cases h
  | cons first rest =>
      obtain ⟨n, rfl⟩ : ∃ n, count = n + 1 := ⟨count - 1, by have := (extent?_bounds h).1; omega⟩
      cases left' with
      | nil => cases htake
      | cons first' rest' =>
          rw [List.take_succ_cons, List.take_succ_cons, List.cons.injEq] at htake
          obtain ⟨rfl, htake⟩ := htake
          simp only [List.getElem?_cons_succ] at hnext
          simp only [extent?] at h ⊢
          cases hs : Shape.of first' with
          | heading =>
              rw [hs] at h
              exact h
          | quote =>
              simp only [hs, Option.some.injEq, Nat.add_right_cancel_iff] at h ⊢
              subst h
              rw [take_length_takeWhile] at htake
              rw [takeWhile_of_agree htake]
              intro line hline
              rcases hnext line hline with hblank | hsame
              · exact isQuoted_of_allBlank hblank
              · exact getElem?_length_takeWhile hsame
          | fence =>
              simp only [hs] at h ⊢
              split at h
              · next hclosed =>
                  -- the closing line is among the lines taken, so the next one is not asked
                  rw [Option.some.injEq] at h
                  obtain rfl : n = (rest.takeWhile fun line => !isFenceEnd line).length + 1 := by
                    omega
                  have hlength := congrArg List.length htake
                  rw [List.length_take, List.length_take] at hlength
                  rw [takeWhile_of_agree_next htake, if_pos (by omega), Option.some.injEq]
              · cases h
          | paragraph =>
              simp only [hs, Option.some.injEq, Nat.add_right_cancel_iff] at h ⊢
              subst h
              rw [take_length_takeWhile] at htake
              rw [takeWhile_of_agree htake]
              intro line hline
              rcases hnext line hline with hblank | hsame
              · rw [hblank]
                rfl
              · exact getElem?_length_takeWhile (p := fun line => !Text.allBlank line) hsame

/-! ## Emptied lines -/

/-- The lines, those with the given numbers emptied. -/
def blankedAt (numbers : List Nat) (lines : List Text) : List Text :=
  lines.mapIdx fun i line => if i + 1 ∈ numbers then [] else line

theorem getElem?_blankedAt (numbers : List Nat) (lines : List Text) (i : Nat) :
    (blankedAt numbers lines)[i]? =
      (lines[i]?).map fun line => if i + 1 ∈ numbers then [] else line := by
  rw [blankedAt, List.getElem?_mapIdx]

theorem length_blankedAt (numbers : List Nat) (lines : List Text) :
    (blankedAt numbers lines).length = lines.length := List.length_mapIdx

/-- A block keeps its lines and its extent when none of its lines is emptied. -/
theorem extent?_blankedAt {numbers : List Nat} {lines : List Text} {position count : Nat}
    (hextent : extent? (lines.drop position) = some count)
    (hnone : ∀ i, position ≤ i → i < position + count → i + 1 ∉ numbers) :
    ((blankedAt numbers lines).drop position).take count = (lines.drop position).take count ∧
      extent? ((blankedAt numbers lines).drop position) = some count := by
  have htake : ((blankedAt numbers lines).drop position).take count =
      (lines.drop position).take count := by
    refine List.ext_getElem? fun i => ?_
    rcases Nat.lt_or_ge i count with hlt | hge
    · rw [List.getElem?_take_of_lt hlt, List.getElem?_take_of_lt hlt, List.getElem?_drop,
        List.getElem?_drop, getElem?_blankedAt]
      simp only [if_neg (hnone (position + i) (by omega) (by omega)), Option.map_id']
    · rw [List.getElem?_take_eq_none hge, List.getElem?_take_eq_none hge]
  refine ⟨htake, extent?_of_agree hextent htake fun next hnext => ?_⟩
  rw [List.getElem?_drop, getElem?_blankedAt, Option.map_eq_some_iff] at hnext
  obtain ⟨old, hold, rfl⟩ := hnext
  split
  · exact .inl rfl
  · exact .inr (by rw [List.getElem?_drop, hold])

/-- Blocks with new numbers, one after the other. -/
def numberedFrom : (next : Nat) → List Block → List Block
  | _, [] => []
  | next, b :: rest => { b with id := next } :: numberedFrom (next + 1) rest

theorem line_mem_of_diagnostic {turns : List Turn} {d : Diagnostic}
    (hd : d ∈ turns.filterMap Turn.diagnostic?) : d.line ∈ turns.flatMap Turn.lines := by
  obtain ⟨turn, hturn, hd⟩ := List.mem_filterMap.mp hd
  refine List.mem_flatMap.mpr ⟨turn, hturn, ?_⟩
  rw [Turn.lines, Turn.diagnostic?_eq_some.mp hd]
  exact List.mem_singleton_self _

section Blanked

variable {lines : List Text} {position id : Nat} {turns : List Turn}

/-- A reading without its faults. Its blocks are those of the reading, with
numbers that leave no gap. -/
theorem Reading.blanked (h : Reading lines position id turns) (numbers : List Nat)
    (hnumbers : ∀ n, position < n →
      (n ∈ numbers ↔ ∃ d ∈ turns.filterMap Turn.diagnostic?, d.line = n)) (id' : Nat) :
    ∃ turns', Reading (blankedAt numbers lines) position id' turns' ∧
      turns'.filterMap Turn.diagnostic? = [] ∧
      turns'.filterMap Turn.block? = numberedFrom id' (turns.filterMap Turn.block?) := by
  induction h generalizing id' with
  | done hend =>
      exact ⟨[], .done (by rw [length_blankedAt]; exact hend), rfl, rfl⟩
  | @blank position id turns line hline hblank rest ih =>
      obtain ⟨turns', hreading, hfaults, hblocks⟩ :=
        ih (fun n hn => hnumbers n (by omega)) id'
      refine ⟨turns', ?_, hfaults, hblocks⟩
      have hfirst := getElem?_blankedAt numbers lines position
      rw [hline, Option.map_some] at hfirst
      refine .blank hfirst ?_ hreading
      split
      · rfl
      · exact hblank
  | @block position id count turns line hline hfull hextent rest ih =>
      obtain ⟨hpos, hcount⟩ := extent?_bounds hextent
      rw [List.length_drop] at hcount
      -- what is named from here on is named behind the block
      have hnone : ∀ i, position ≤ i → i < position + count → i + 1 ∉ numbers := by
        intro i hi hlt hmem
        obtain ⟨d, hd, hdi⟩ := (hnumbers (i + 1) (by omega)).mp hmem
        rw [List.filterMap_cons_none (by rfl)] at hd
        have := rest.lines_increase.2 _ (line_mem_of_diagnostic hd)
        omega
      obtain ⟨htake, hstop⟩ := extent?_blankedAt hextent hnone
      obtain ⟨turns', hreading, hfaults, hblocks⟩ := ih (fun n hn => by
        rw [hnumbers n (by omega), List.filterMap_cons_none (by rfl)]) (id' + 1)
      have hfirst := getElem?_blankedAt numbers lines position
      rw [hline, Option.map_some, if_neg (hnone position (Nat.le_refl _) (by omega))] at hfirst
      refine ⟨_, .block hfirst hfull hstop hreading, ?_, ?_⟩
      · rw [List.filterMap_cons_none (by rfl), hfaults]
      · rw [List.filterMap_cons_some (by rfl), List.filterMap_cons_some (by rfl), hblocks, htake,
          numberedFrom]
        rfl
  | @fault position id turns line hline hfull hextent rest ih =>
      -- the line is blank now, and the number that was used up is not used
      have hnamed : position + 1 ∈ numbers := by
        refine (hnumbers (position + 1) (Nat.lt_succ_self _)).mpr
          ⟨⟨.unterminatedFence, position + 1⟩, ?_, rfl⟩
        rw [List.filterMap_cons_some (by rfl)]
        exact List.mem_cons_self
      obtain ⟨turns', hreading, hfaults, hblocks⟩ := ih (fun n hn => by
        rw [hnumbers n (by omega), List.filterMap_cons_some (by rfl)]
        simp only [List.mem_cons, exists_eq_or_imp]
        refine ⟨fun hor => hor.resolve_left fun heq => ?_, .inr⟩
        exact absurd heq (by omega)) id'
      have hfirst := getElem?_blankedAt numbers lines position
      rw [hline, Option.map_some, if_pos hnamed] at hfirst
      refine ⟨turns', .blank hfirst rfl hreading, hfaults, ?_⟩
      · rw [List.filterMap_cons_none (by rfl), hblocks]

end Blanked

/-! ## Numbers that close up -/

/-- How many blocks have a number up to one: the number of its block when the
blocks are counted from one. -/
def rank (blocks : List Block) (id : Nat) : Nat := (blocks.filter (·.id ≤ id)).length

theorem rank_of_getElem? {blocks : List Block} (hnum : Numbered blocks) {i : Nat} {b : Block}
    (hb : blocks[i]? = some b) : rank blocks b.id = i + 1 := by
  obtain ⟨hi, rfl⟩ := List.getElem?_eq_some_iff.mp hb
  have hsplit : blocks = blocks.take i ++ blocks[i] :: blocks.drop (i + 1) := by
    rw [← List.drop_eq_getElem_cons hi, List.take_append_drop]
  have hnum' := hnum
  rw [hsplit] at hnum'
  obtain ⟨_, hafter, hbefore⟩ := List.pairwise_append.mp hnum'
  have hless : (blocks.take i).filter (fun x => decide (x.id ≤ blocks[i].id)) = blocks.take i := by
    refine List.filter_eq_self.mpr fun x hx => decide_eq_true ?_
    exact (hbefore x hx _ List.mem_cons_self).le
  have hmore : (blocks.drop (i + 1)).filter (fun x => decide (x.id ≤ blocks[i].id)) = [] := by
    refine List.filter_eq_nil_iff.mpr fun x hx hle => ?_
    have := (List.pairwise_cons.mp hafter).1 x hx
    have := of_decide_eq_true hle
    omega
  have hall := congrArg (List.filter fun x => decide (x.id ≤ blocks[i].id)) hsplit
  rw [List.filter_append, hless, List.filter_cons_of_pos (by simp), hmore] at hall
  rw [rank, hall, List.length_append, List.length_take]
  simp only [List.length_cons, List.length_nil]
  omega

theorem rank_lt {blocks : List Block} (hnum : Numbered blocks) {a b : Block} (ha : a ∈ blocks)
    (hb : b ∈ blocks) (hlt : a.id < b.id) : rank blocks a.id < rank blocks b.id := by
  obtain ⟨i, hi⟩ := List.mem_iff_getElem?.mp ha
  obtain ⟨j, hj⟩ := List.mem_iff_getElem?.mp hb
  rw [rank_of_getElem? hnum hi, rank_of_getElem? hnum hj]
  rcases Nat.lt_trichotomy i j with hij | rfl | hji
  · omega
  · rw [hi, Option.some.injEq] at hj
    rw [hj] at hlt
    omega
  · have := hnum.lt_of_getElem? hj hi hji
    omega

theorem map_rank {blocks : List Block} (hnum : Numbered blocks) :
    blocks.map (fun b => rank blocks b.id) = List.range' 1 blocks.length := by
  refine List.ext_getElem? fun i => ?_
  rw [List.getElem?_map]
  rcases Nat.lt_or_ge i blocks.length with hlt | hge
  · have hi := List.getElem?_eq_getElem hlt
    rw [hi, Option.map_some, rank_of_getElem? hnum hi, List.getElem?_range' hlt]
    congr 1
    omega
  · rw [List.getElem?_eq_none hge, List.getElem?_eq_none (by rwa [List.length_range'])]
    rfl

theorem numberedFrom_eq_map {blocks : List Block} {next : Nat} {f : Nat → Nat}
    (h : blocks.map (fun b => f b.id) = List.range' next blocks.length) :
    numberedFrom next blocks = blocks.map fun b => { b with id := f b.id } := by
  induction blocks generalizing next with
  | nil => rfl
  | cons b rest ih =>
      rw [List.map_cons, List.length_cons, List.range'_succ, List.cons.injEq] at h
      rw [numberedFrom, List.map_cons, ih h.2, h.1]

/-- A document without the lines that its diagnostics name: the same blocks,
numbered without gaps, and the same extraction. -/
theorem read_blanked (lines : List Text) :
    let outline := Grammar.standard.read lines
    let clean := Grammar.standard.read (blankedAt (outline.diagnostics.map (·.line)) lines)
    clean.diagnostics = [] ∧
      clean.blocks = outline.blocks.map (Block.renumbered (rank outline.blocks)) ∧
      clean.blocks.map (·.id) = List.range' 1 outline.blocks.length ∧
      extract clean.blocks = extract outline.blocks := by
  intro outline clean
  obtain ⟨turns, hreading, hfaults, hblocks⟩ := (reading_turns lines).blanked
    (outline.diagnostics.map (·.line)) (fun n _ => List.mem_map) 1
  have hturns := reading_iff.mp hreading
  have hung : Hung outline.blocks := read_hung lines
  have hincrease : ∀ a ∈ outline.blocks, ∀ b ∈ outline.blocks, a.id < b.id →
      rank outline.blocks a.id < rank outline.blocks b.id :=
    fun a ha b hb hlt => rank_lt hung.numbered ha hb hlt
  have hsame : clean.blocks = outline.blocks.map (Block.renumbered (rank outline.blocks)) := by
    refine (read_hung _).ext (hung.renumbered hincrease) ?_
    have hbare : outline.blocks.map Block.bare = (Grammar.standard.turns lines).filterMap
      Turn.block? := (read_spec lines).2
    have hranks : (outline.blocks.map Block.bare).map (fun b => rank outline.blocks b.id) =
        List.range' 1 (outline.blocks.map Block.bare).length := by
      rw [List.map_map, List.length_map]
      exact map_rank hung.numbered
    rw [(read_spec _).2, Grammar.turns, ← hturns, hblocks, ← hbare, numberedFrom_eq_map hranks,
      List.map_map, List.map_map]
    rfl
  refine ⟨?_, hsame, ?_, ?_⟩
  · rw [← hfaults, hturns]
    rfl
  · rw [hsame, List.map_map]
    exact map_rank hung.numbered
  · rw [hsame, hung.extract_renumbered hincrease]

end RequestBook
