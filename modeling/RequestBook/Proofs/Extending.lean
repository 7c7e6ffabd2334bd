import RequestBook.Proofs.Accounting

/-!
# Reading ends whatever the constructs do

A grammar may hold any constructs. They say of any line that it is theirs,
answer any block or problem, and claim to have stopped anywhere: before the
line they began at, at it, or far behind the last line. `Grammar.Runs` is the
loop that asks them, one rule for each way round, and it is not taken for
granted that it ends. It does, because the loop never goes on at a line it has
been at: `runs_attemptFrom` finds the one run there is, by induction on the lines
that are left, and nothing is asked of the constructs for that.

A run ends before the last line when a construct answers a heading that the table
of headings has no room for, and in no other case: `Runs.whole` and
`Runs.stopped` are the two ends. How much room there is is left open. A table that
is long enough for one heading takes every heading above it, so for every run there
is a number of levels that it had room for, also where memory was short. For the
standard grammar long lines are needed to use it up (`standard_answersWithin`).

What a construct puts into its block is another matter. Only if it keeps the
number it was given (`KeepsNumbers`) do the numbers of the blocks increase, and
only then is the search by halving a search at all. Then it finds every parent
that the table of headings names, because the table forgets nothing and names
nothing else than blocks that came before: `Hanging.Follows` is that invariant,
for blocks in any state. The order that a construct gave a heading does not
enter it, since the table overrides the order of every heading
(`place_ordered`); that is why the invariant speaks of `Block.ordered`.
-/

namespace RequestBook

/-! ## One turn -/

/-- Whether the table has room for what the turn made. -/
def Turn.Fits (room : Nat) (turn : Turn) : Prop :=
  ∀ b, turn.answer = .ok b → b.isWithin room = true

namespace Turn

variable {room : Nat} {state after : Hanging} {turn : Turn}

theorem settle?_eq_none_iff :
    turn.settle? room state = none ↔ ∃ b, turn.answer = .ok b ∧ b.isWithin room = false := by
  rw [settle?]
  cases turn.answer with
  | ok b => simp [Hanging.add?]
  | error d => simp

theorem fits_of_settle? (h : turn.settle? room state = some after) : turn.Fits room := by
  intro b hb
  by_contra hdeep
  have hnone : turn.settle? room state = none :=
    settle?_eq_none_iff.mpr ⟨b, hb, Bool.not_eq_true _ ▸ hdeep⟩
  rw [hnone] at h
  cases h

/-- When there is room the block is hung, if there is a block. -/
theorem eq_of_settle? (h : turn.settle? room state = some after) :
    after = ([turn].filterMap block?).foldl Hanging.add state := by
  rw [settle?] at h
  cases hanswer : turn.answer with
  | ok b =>
      rw [List.filterMap_cons_some (block?_eq_some.mpr hanswer)]
      simp only [hanswer, Hanging.add?, Option.ite_none_right_eq_some, Option.some.injEq] at h
      exact h.2.symm
  | error d =>
      rw [List.filterMap_cons_none (by rw [block?, hanswer]; rfl)]
      simp only [hanswer, Option.some.injEq] at h
      exact h.symm

end Turn

/-! ## The loop -/

namespace Grammar

/-- A run of the reader from a position on, with room for some levels, a number
for the next turn and what hangs already. A construct that claims to have stopped
no later than it began is not believed. -/
inductive Runs (grammar : Grammar) (room : Nat) (lines : List Text) :
    (position id : Nat) → Hanging → Attempt → Prop
  | done {position id : Nat} {state : Hanging} (hend : lines.length ≤ position) :
      Runs grammar room lines position id state ⟨[], some state⟩
  | blank {position id : Nat} {state : Hanging} {attempt : Attempt} {line : Text}
      (hline : lines[position]? = some line) (hblank : Text.allBlank line = true)
      (rest : Runs grammar room lines (position + 1) id state attempt) :
      Runs grammar room lines position id state attempt
  | asked {position id next : Nat} {state after : Hanging} {attempt : Attempt} {line : Text}
      {answer : Except Diagnostic Block}
      (hline : lines[position]? = some line) (hfull : Text.allBlank line = false)
      (hanswer : (grammar.constructFor (Text.trim line)).consume lines position id =
        (answer, next))
      (hroom : Turn.settle? room state ⟨position, id, answer⟩ = some after)
      (rest : Runs grammar room lines (if next ≤ position then position + 1 else next) (id + 1)
        after attempt) :
      Runs grammar room lines position id state (attempt.behind ⟨position, id, answer⟩)
  /-- A heading that is too deep is not hung, and nothing comes behind it. -/
  | tooDeep {position id next : Nat} {state : Hanging} {line : Text}
      {answer : Except Diagnostic Block}
      (hline : lines[position]? = some line) (hfull : Text.allBlank line = false)
      (hanswer : (grammar.constructFor (Text.trim line)).consume lines position id =
        (answer, next))
      (hroom : Turn.settle? room state ⟨position, id, answer⟩ = none) :
      Runs grammar room lines position id state ⟨[⟨position, id, answer⟩], none⟩

section Equations

variable {grammar : Grammar} {room : Nat} {lines : List Text} {position id next : Nat}
  {state after : Hanging} {line : Text} {answer : Except Diagnostic Block}

theorem attemptFrom_done (hend : lines.length ≤ position) :
    grammar.attemptFrom room lines position id state = ⟨[], some state⟩ := by
  rw [attemptFrom, dif_neg (by omega)]

theorem attemptFrom_blank (hline : lines[position]? = some line)
    (hblank : Text.allBlank line = true) :
    grammar.attemptFrom room lines position id state =
      grammar.attemptFrom room lines (position + 1) id state := by
  obtain ⟨hlt, rfl⟩ := List.getElem?_eq_some_iff.mp hline
  rw [attemptFrom, dif_pos hlt]
  rw [if_pos (by rw [Text.trim_eq_nil_iff.mpr hblank]; rfl)]

theorem attemptFrom_asked (hline : lines[position]? = some line)
    (hfull : Text.allBlank line = false)
    (hanswer : (grammar.constructFor (Text.trim line)).consume lines position id =
      (answer, next))
    (hroom : Turn.settle? room state ⟨position, id, answer⟩ = some after) :
    grammar.attemptFrom room lines position id state =
      (grammar.attemptFrom room lines (max next (position + 1)) (id + 1) after).behind
        ⟨position, id, answer⟩ := by
  obtain ⟨hlt, rfl⟩ := List.getElem?_eq_some_iff.mp hline
  rw [attemptFrom, dif_pos hlt]
  simp only [Text.isEmpty_trim hfull, Bool.false_eq_true, if_false, hanswer, hroom]

theorem attemptFrom_tooDeep (hline : lines[position]? = some line)
    (hfull : Text.allBlank line = false)
    (hanswer : (grammar.constructFor (Text.trim line)).consume lines position id =
      (answer, next))
    (hroom : Turn.settle? room state ⟨position, id, answer⟩ = none) :
    grammar.attemptFrom room lines position id state = ⟨[⟨position, id, answer⟩], none⟩ := by
  obtain ⟨hlt, rfl⟩ := List.getElem?_eq_some_iff.mp hline
  rw [attemptFrom, dif_pos hlt]
  simp only [Text.isEmpty_trim hfull, Bool.false_eq_true, if_false, hanswer, hroom]

theorem resume_eq_max (next position : Nat) :
    (if next ≤ position then position + 1 else next) = max next (position + 1) := by
  split <;> omega

end Equations

/-- The loop has a run from everywhere: whatever the constructs answer, fewer
lines are left behind every turn. -/
theorem runs_attemptFrom (grammar : Grammar) (room : Nat) (lines : List Text)
    (position id : Nat) (state : Hanging) :
    grammar.Runs room lines position id state
      (grammar.attemptFrom room lines position id state) := by
  induction hn : lines.length - position using Nat.strongRecOn generalizing position id state with
  | ind n ih =>
    rcases Nat.lt_or_ge position lines.length with hlt | hge
    · have hline : lines[position]? = some lines[position] := List.getElem?_eq_getElem hlt
      cases hb : Text.allBlank lines[position] with
      | true =>
          rw [attemptFrom_blank hline hb]
          exact .blank hline hb (ih _ (by omega) _ _ _ rfl)
      | false =>
          cases hroom : Turn.settle? room state ⟨position, id,
              ((grammar.constructFor (Text.trim lines[position])).consume lines position id).1⟩ with
          | none =>
              rw [attemptFrom_tooDeep hline hb rfl hroom]
              exact .tooDeep hline hb rfl hroom
          | some after =>
              rw [attemptFrom_asked hline hb rfl hroom, ← resume_eq_max]
              refine .asked hline hb rfl hroom (ih _ ?_ _ _ _ rfl)
              split <;> omega
    · rw [attemptFrom_done hge]
      exact .done hge

section Runs

variable {grammar : Grammar} {room : Nat} {lines : List Text} {position id : Nat}
  {state : Hanging} {attempt : Attempt} {turn : Turn}

/-- And it has no other. -/
theorem Runs.eq_attemptFrom (h : grammar.Runs room lines position id state attempt) :
    attempt = grammar.attemptFrom room lines position id state := by
  induction h with
  | done hend => rw [attemptFrom_done hend]
  | blank hline hblank rest ih => rw [attemptFrom_blank hline hblank, ih]
  | asked hline hfull hanswer hroom rest ih =>
      rw [attemptFrom_asked hline hfull hanswer hroom, ih, resume_eq_max]
  | tooDeep hline hfull hanswer hroom => rw [attemptFrom_tooDeep hline hfull hanswer hroom]

theorem Runs.mem (h : grammar.Runs room lines position id state attempt)
    (hturn : turn ∈ attempt.turns) :
    position ≤ turn.position ∧ ∃ line, lines[turn.position]? = some line ∧
      Text.trim line ≠ [] ∧ turn.answer =
        ((grammar.constructFor (Text.trim line)).consume lines turn.position turn.id).1 := by
  have hne : ∀ {line}, Text.allBlank line = false → Text.trim line ≠ [] := fun hfull =>
    List.isEmpty_eq_false_iff.mp (Text.isEmpty_trim hfull)
  induction h with
  | done hend => cases hturn
  | blank hline hblank rest ih =>
      obtain ⟨hpos, hstand⟩ := ih hturn
      exact ⟨by omega, hstand⟩
  | asked hline hfull hanswer hroom rest ih =>
      rcases List.mem_cons.mp hturn with rfl | hturn
      · exact ⟨Nat.le_refl _, _, hline, hne hfull, by rw [hanswer]⟩
      · obtain ⟨hpos, hstand⟩ := ih hturn
        refine ⟨?_, hstand⟩
        split at hpos <;> omega
  | tooDeep hline hfull hanswer hroom =>
      obtain rfl := List.mem_singleton.mp hturn
      exact ⟨Nat.le_refl _, _, hline, hne hfull, by rw [hanswer]⟩

/-- Every turn begins behind the one before. -/
theorem Runs.onward (h : grammar.Runs room lines position id state attempt) :
    attempt.turns.Pairwise fun s t => s.position < t.position := by
  induction h with
  | done hend => exact .nil
  | blank hline hblank rest ih => exact ih
  | @asked position id next state after attempt line answer hline hfull hanswer hroom rest ih =>
      refine List.pairwise_cons.mpr ⟨fun turn hturn => ?_, ih⟩
      have hpos := (rest.mem hturn).1
      show position < turn.position
      split at hpos <;> omega
  | tooDeep hline hfull hanswer hroom => exact List.pairwise_singleton _ _

/-- Numbers are given without a gap, whatever comes of a turn. -/
theorem Runs.counted (h : grammar.Runs room lines position id state attempt) :
    attempt.turns.map (·.id) = List.range' id attempt.turns.length := by
  induction h with
  | done hend => rfl
  | blank hline hblank rest ih => exact ih
  | asked hline hfull hanswer hroom rest ih =>
      rw [Attempt.behind, List.map_cons, ih, List.length_cons, List.range'_succ]
  | tooDeep hline hfull hanswer hroom => rfl

/-- With room for every heading, all turns are taken and all blocks are hung. -/
theorem Runs.whole (h : grammar.Runs room lines position id state attempt)
    (hfits : ∀ turn ∈ attempt.turns, turn.Fits room) :
    attempt.turns = grammar.turnsFrom lines position id ∧
      attempt.last = some ((attempt.turns.filterMap Turn.block?).foldl Hanging.add state) := by
  induction h with
  | done hend => exact ⟨(turnsFrom_done hend).symm, rfl⟩
  | blank hline hblank rest ih =>
      rw [turnsFrom_blank hline hblank]
      exact ih hfits
  | asked hline hfull hanswer hroom rest ih =>
      obtain ⟨hturns, hlast⟩ := ih fun turn hturn => hfits turn (List.mem_cons_of_mem _ hturn)
      refine ⟨?_, ?_⟩
      · rw [turnsFrom_asked hline hfull, hanswer, Attempt.behind, hturns, resume_eq_max]
      · rw [Attempt.behind, hlast, Turn.eq_of_settle? hroom, ← List.foldl_append,
          ← List.filterMap_append, List.singleton_append]
  | tooDeep hline hfull hanswer hroom =>
      obtain ⟨b, hb, hdeep⟩ := Turn.settle?_eq_none_iff.mp hroom
      rw [hfits _ (List.mem_singleton_self _) b hb] at hdeep
      cases hdeep

/-- A heading that is too deep is the last thing that is answered. -/
theorem Runs.stopped (h : grammar.Runs room lines position id state attempt)
    (hturn : turn ∈ attempt.turns) (hdeep : ¬ turn.Fits room) :
    attempt.last = none ∧ attempt.turns.getLast? = some turn := by
  induction h with
  | done hend => cases hturn
  | blank hline hblank rest ih => exact ih hturn
  | asked hline hfull hanswer hroom rest ih =>
      rcases List.mem_cons.mp hturn with rfl | hturn
      · exact absurd (Turn.fits_of_settle? hroom) hdeep
      · obtain ⟨hlast, hturns⟩ := ih hturn
        exact ⟨hlast, by rw [Attempt.behind, List.getLast?_cons, hturns, Option.getD_some]⟩
  | tooDeep hline hfull hanswer hroom =>
      obtain rfl := List.mem_singleton.mp hturn
      exact ⟨rfl, rfl⟩

end Runs

end Grammar

/-! ## Constructs that keep to their numbers and to the room -/

/-- A construct puts the number that it is given into its block. -/
def Construct.KeepsNumber (construct : Construct) : Prop :=
  ∀ lines position id b, (construct.consume lines position id).1 = .ok b → b.id = id

/-- So do all constructs of a grammar. -/
def Grammar.KeepsNumbers (grammar : Grammar) : Prop :=
  ∀ construct ∈ grammar.fallback :: grammar.constructs, construct.KeepsNumber

/-- A construct answers no heading that is too deep, wherever it is asked. -/
def Construct.AnswersWithin (construct : Construct) (room : Nat) (lines : List Text) : Prop :=
  ∀ position id b, (construct.consume lines position id).1 = .ok b → b.isWithin room = true

/-- Nor does any construct of a grammar. -/
def Grammar.AnswersWithin (grammar : Grammar) (room : Nat) (lines : List Text) : Prop :=
  ∀ construct ∈ grammar.fallback :: grammar.constructs, construct.AnswersWithin room lines

namespace Grammar

variable {grammar : Grammar} {room : Nat} {lines : List Text}

theorem constructFor_mem (grammar : Grammar) (line : Text) :
    grammar.constructFor line ∈ grammar.fallback :: grammar.constructs := by
  rw [constructFor]
  cases hfound : grammar.constructs.find? (·.opens line) with
  | none => exact List.mem_cons_self
  | some construct => exact List.mem_cons_of_mem _ (List.mem_of_find?_eq_some hfound)

/-- Every block of a reading was answered by one of the constructs. -/
theorem exists_asked (grammar : Grammar) (room : Nat) (lines : List Text) {turn : Turn}
    (hturn : turn ∈ (grammar.attempt room lines).turns) {b : Block} (hb : turn.answer = .ok b) :
    ∃ construct ∈ grammar.fallback :: grammar.constructs,
      (construct.consume lines turn.position turn.id).1 = .ok b := by
  obtain ⟨_, line, _, _, hanswer⟩ := (grammar.runs_attemptFrom room lines 0 1 {}).mem hturn
  exact ⟨_, grammar.constructFor_mem _, hanswer ▸ hb⟩

/-- Turns that made no block leave a gap in the numbers, and no more. -/
theorem KeepsNumbers.numbered (h : grammar.KeepsNumbers) (room : Nat) (lines : List Text) :
    Numbered ((grammar.attempt room lines).turns.filterMap Turn.block?) := by
  have hids : (grammar.attempt room lines).turns.Pairwise fun s t => s.id < t.id := by
    have hrange : ((grammar.attempt room lines).turns.map (·.id)).Pairwise (· < ·) := by
      rw [attempt, (grammar.runs_attemptFrom room lines 0 1 {}).counted]
      exact List.pairwise_lt_range'
    exact List.pairwise_map.mp hrange
  have hkept : ∀ turn ∈ (grammar.attempt room lines).turns,
      ∀ b, turn.block? = some b → b.id = turn.id := by
    intro turn hturn b hb
    obtain ⟨construct, hmem, hasked⟩ :=
      grammar.exists_asked room lines hturn (Turn.block?_eq_some.mp hb)
    exact h construct hmem _ _ _ _ hasked
  refine List.pairwise_filterMap.mpr (hids.imp_of_mem ?_)
  intro s t hs ht hlt a ha b hb
  rw [hkept s hs a ha, hkept t ht b hb]
  exact hlt

theorem AnswersWithin.fits (h : grammar.AnswersWithin room lines) :
    ∀ turn ∈ (grammar.attempt room lines).turns, turn.Fits room := by
  intro turn hturn b hb
  obtain ⟨construct, hmem, hasked⟩ := grammar.exists_asked room lines hturn hb
  exact h construct hmem _ _ _ hasked

/-- What is true of the constructs of a grammar and of one more is true when that one
has been registered. -/
theorem forall_mem_register {P : Construct → Prop}
    (h : ∀ construct ∈ grammar.fallback :: grammar.constructs, P construct)
    {construct : Construct} (hown : P construct) :
    ∀ other ∈ (grammar.register construct).1.fallback :: (grammar.register construct).1.constructs,
      P other := by
  rw [register]
  split
  · exact h
  · intro other hother
    rcases List.mem_cons.mp hother with rfl | hother
    · exact h _ List.mem_cons_self
    · rcases List.mem_append.mp hother with hother | hother
      · exact h other (List.mem_cons_of_mem _ hother)
      · rw [List.mem_singleton.mp hother]
        exact hown

end Grammar

theorem headingLevel_le (line : Text) : headingLevel line ≤ line.length :=
  (List.takeWhile_prefix _).length_le.trans (Text.trim_infix_self line).length_le

/-- A standard construct keeps its number, and its headings are no deeper than the
line they stand in is long. -/
theorem standard_answers {construct : Construct}
    (hmem : construct ∈ Grammar.standard.fallback :: Grammar.standard.constructs)
    {lines : List Text} {position id : Nat} {b : Block}
    (hb : (construct.consume lines position id).1 = .ok b) :
    b.id = id ∧ ∀ level, b.kind.level? = some level → ∃ line ∈ lines, level ≤ line.length := by
  have hrefusal : ∀ name position b, refusal name position ≠ .ok b := fun _ _ _ => nofun
  simp only [Grammar.standard, List.mem_cons, List.not_mem_nil, or_false] at hmem
  rcases hmem with rfl | rfl | rfl | rfl
  · simp only [paragraph] at hb
    split at hb
    · exact absurd hb (hrefusal _ _ _)
    · cases hb
      exact ⟨rfl, fun _ hlevel => by cases hlevel⟩
  · simp only [heading] at hb
    split at hb
    · exact absurd hb (hrefusal _ _ _)
    · next raw hraw =>
        split at hb
        · cases hb
          refine ⟨rfl, fun level hlevel => ⟨raw, List.mem_of_getElem? hraw, ?_⟩⟩
          obtain rfl := Option.some.inj hlevel
          exact (headingLevel_le _).trans (Text.trim_infix_self raw).length_le
        · exact absurd hb (hrefusal _ _ _)
  · simp only [quote] at hb
    split at hb
    · exact absurd hb (hrefusal _ _ _)
    · cases hb
      exact ⟨rfl, fun _ hlevel => by cases hlevel⟩
  · simp only [fence] at hb
    split at hb
    · exact absurd hb (hrefusal _ _ _)
    · split at hb
      · cases hb
        exact ⟨rfl, fun _ hlevel => by cases hlevel⟩
      · cases hb

theorem standard_keepsNumbers : Grammar.standard.KeepsNumbers :=
  fun _ hmem _ _ _ _ hb => (standard_answers hmem hb).1

theorem standard_answersWithin {room : Nat} {lines : List Text}
    (h : ∀ line ∈ lines, line.length < room) : Grammar.standard.AnswersWithin room lines := by
  intro construct hmem position id b hb
  rw [Block.isWithin, Option.all_eq_true]
  intro level hlevel
  obtain ⟨line, hline, hle⟩ := (standard_answers hmem hb).2 level hlevel
  exact decide_eq_true (hle.trans_lt (h line hline))

/-! ## The table of headings, for blocks in any state -/

/-- The block as it is placed, with the order that every heading gets. -/
def Block.ordered (b : Block) : Block :=
  match b.kind with
  | .heading level _ => { b with kind := .heading level 1 }
  | _ => b

theorem Block.ordered_id (b : Block) : b.ordered.id = b.id := by
  rw [ordered]
  split <;> rfl

theorem Block.level?_ordered (b : Block) : b.ordered.kind.level? = b.kind.level? := by
  rw [ordered]
  split
  · next hkind => rw [hkind]; rfl
  · rfl

theorem Block.order_ordered {b : Block} {level order : Nat}
    (h : b.ordered.kind = .heading level order) : order = 1 := by
  rw [ordered] at h
  split at h
  · cases h
    rfl
  · next hno => exact absurd h (hno level order)

/-- The table does not look at the order that a block comes with. -/
theorem place_ordered (table : Headings) (b : Block) : place table b.ordered = place table b := by
  rw [Block.ordered]
  split
  · next hkind => rw [place, place, hkind]
  · rfl

theorem scannedParent_ordered (before : List Block) (b : Block) :
    scannedParent (before.map Block.ordered) b.ordered = scannedParent before b := by
  have hnearest : ∀ q : Option Nat → Bool,
      (nearest? (before.map Block.ordered) fun x => q x.kind.level?).map (·.id) =
        (nearest? before fun x => q x.kind.level?).map (·.id) := by
    intro q
    rw [nearest?_map, Option.map_map]
    simp only [Function.comp_def, Block.level?_ordered, Block.ordered_id]
  rw [scannedParent, scannedParent, Block.ordered]
  cases hkind : b.kind with
  | heading level order =>
      simp only []
      split
      · exact hnearest (· == some (level - 1))
      · rfl
  | quote | fence | paragraph =>
      simp only [hkind]
      exact hnearest Option.isSome

/-! ## Hanging, for blocks in any state -/

theorem sign_map_hang (blocks : List Block) (b : Block) (parent : Option Nat) :
    (hang blocks b parent).map Block.sign = blocks.map Block.sign ++ [b.sign] := by
  rw [hang]
  split
  · rw [List.map_append, List.map_singleton]
  · next id index _ =>
      have hsame : (blocks.modify index fun above =>
          { above with children := above.children ++ [b.id] }).map Block.sign =
            blocks.map Block.sign := by
        refine List.ext_getElem? fun i => ?_
        rw [List.getElem?_map, List.getElem?_modify, List.getElem?_map]
        cases blocks[i]? with
        | none => rfl
        | some x => by_cases hi : index = i <;> simp [hi, Block.sign]
      rw [List.map_append, hsame, List.map_singleton]
      rfl

/-- What more blocks do to a block that hangs already: it may get children, and
nothing else changes that a block is linked by. -/
structure Block.Grows (old new : Block) : Prop where
  id : new.id = old.id
  parent : new.parent = old.parent
  children : old.children <+: new.children

theorem Block.Grows.refl (b : Block) : b.Grows b := ⟨rfl, rfl, List.prefix_rfl⟩

theorem Block.Grows.trans {a b c : Block} (h : a.Grows b) (h' : b.Grows c) : a.Grows c :=
  ⟨h'.id.trans h.id, h'.parent.trans h.parent, h.children.trans h'.children⟩

theorem exists_grown_hang {blocks : List Block} {x : Block} (hx : x ∈ blocks) (b : Block)
    (parent : Option Nat) : ∃ y ∈ hang blocks b parent, x.Grows y := by
  rw [hang]
  split
  · exact ⟨x, List.mem_append_left _ hx, .refl x⟩
  · next id index _ =>
      obtain ⟨i, hi⟩ := List.mem_iff_getElem?.mp hx
      refine ⟨if index = i then { x with children := x.children ++ [b.id] } else x,
        List.mem_append_left _ (List.mem_iff_getElem?.mpr ⟨i, ?_⟩), ?_⟩
      · rw [List.getElem?_modify, hi]
        rfl
      · split
        · exact ⟨rfl, rfl, List.prefix_append _ _⟩
        · exact .refl x

theorem exists_grown_foldl {state : Hanging} {x : Block} (hx : x ∈ state.blocks)
    (later : List Block) : ∃ y ∈ (later.foldl Hanging.add state).blocks, x.Grows y := by
  induction later generalizing state x with
  | nil => exact ⟨x, hx, .refl x⟩
  | cons b later ih =>
      obtain ⟨y, hy, hxy⟩ := exists_grown_hang hx (place state.table b).1 (place state.table b).2.1
      have hadded : y ∈ (state.add b).blocks := hy
      obtain ⟨z, hz, hyz⟩ := ih hadded
      exact ⟨z, hz, hxy.trans hyz⟩

/-- The blocks that hang are those that came, and the table remembers them. -/
structure Hanging.Follows (state : Hanging) (came : List Block) : Prop where
  signs : state.blocks.map Block.sign = (came.map Block.ordered).map Block.sign
  remembers : Remembers state.table state.blocks

namespace Hanging.Follows

variable {state : Hanging} {came : List Block}

theorem ids (h : state.Follows came) : state.blocks.map (·.id) = came.map (·.id) := by
  have hids := congrArg (List.map Prod.fst) h.signs
  rw [List.map_map, List.map_map, List.map_map] at hids
  refine hids.trans (List.map_congr_left fun b _ => ?_)
  exact b.ordered_id

theorem numbered (h : state.Follows came) (hnum : Numbered came) : Numbered state.blocks := by
  have hids : (came.map (·.id)).Pairwise (· < ·) := List.pairwise_map.mpr hnum
  rw [← h.ids] at hids
  exact List.pairwise_map.mp hids

/-- The table names the parent that a search through the blocks that came
finds. -/
theorem place (h : state.Follows came) (b : Block) :
    ∃ table, place state.table b = (b.ordered, scannedParent came b, table) ∧
      Remembers table (state.blocks ++ [b.ordered]) := by
  obtain ⟨table, hplace, hremembers⟩ :=
    h.remembers.place (b := b.ordered) fun _ _ hkind => Block.order_ordered hkind
  rw [place_ordered, scannedParent_congr h.signs rfl, scannedParent_ordered] at hplace
  exact ⟨table, hplace, hremembers⟩

theorem add (h : state.Follows came) (b : Block) : (state.add b).Follows (came ++ [b]) := by
  obtain ⟨table, hplace, hremembers⟩ := h.place b
  rw [Hanging.add, hplace]
  refine ⟨?_, hremembers.congr ?_⟩
  · rw [sign_map_hang, h.signs, List.map_append, List.map_append]
    rfl
  · rw [sign_map_hang, List.map_append]
    rfl

theorem foldl (came : List Block) : (came.foldl Hanging.add {}).Follows came := by
  induction came using List.reverseRecOn with
  | nil => exact ⟨rfl, Remembers.empty⟩
  | append_singleton came b ih =>
      rw [List.foldl_append]
      exact ih.add b

/-- Where numbers increase, the search by halving finds the parent that the
table names. -/
theorem found (h : state.Follows came) (hnum : Numbered came) {b : Block} {id : Nat}
    (hparent : scannedParent came b = some id) :
    ∃ index above, position? state.blocks id = some index ∧
      state.blocks[index]? = some above ∧ above.id = id := by
  obtain ⟨before, hbefore, hid⟩ := exists_of_scannedParent hparent
  have hmem : id ∈ state.blocks.map (·.id) := by
    rw [h.ids, ← hid]
    exact List.mem_map_of_mem hbefore
  obtain ⟨above, habove, rfl⟩ := List.mem_map.mp hmem
  obtain ⟨index, hindex⟩ := List.mem_iff_getElem?.mp habove
  exact ⟨index, above, (position?_eq_some_iff (h.numbered hnum)).mpr ⟨above, hindex, rfl⟩,
    hindex, rfl⟩

/-- What was found is linked from both sides. -/
theorem linked_add (h : state.Follows came) (hnum : Numbered came) {b : Block} {id : Nat}
    (hparent : scannedParent came b = some id) :
    (∃ above ∈ (state.add b).blocks, above.id = id ∧ b.id ∈ above.children) ∧
      ∃ own ∈ (state.add b).blocks, own.id = b.id ∧ own.parent = some id := by
  obtain ⟨table, hplace, -⟩ := h.place b
  obtain ⟨index, above, hposition, hindex, hid⟩ := h.found hnum hparent
  have hadd : state.add b = ⟨hang state.blocks b.ordered (some id), table⟩ := by
    rw [Hanging.add, hplace, hparent]
  rw [hadd]
  simp only [hang, Option.bind_some, hposition, Option.map_some]
  refine ⟨⟨{ above with children := above.children ++ [b.ordered.id] },
      List.mem_append_left _ (List.mem_iff_getElem?.mpr ⟨index, ?_⟩), hid, ?_⟩,
    ⟨_, List.mem_append_right _ (List.mem_singleton_self _), b.ordered_id, rfl⟩⟩
  · rw [List.getElem?_modify, hindex]
    simp
  · rw [b.ordered_id]
    exact List.mem_append_right _ (List.mem_singleton_self _)

end Hanging.Follows

/-! ## Whole documents -/

/-- The blocks that were hung: all that were answered, less a heading that was too
deep. -/
def Attempt.hung (room : Nat) (attempt : Attempt) : List Block :=
  (attempt.turns.filterMap Turn.block?).filter (Block.isWithin room)

/-- What a grammar is asked for and what is made of it, for constructs of any
kind. -/
structure Grammar.AsksInOrder (grammar : Grammar) (room : Nat) (lines : List Text)
    (attempt : Attempt) : Prop where
  /-- The reader ends, and in one way only. -/
  ends : grammar.Runs room lines 0 1 {} attempt
  only : ∀ other, grammar.Runs room lines 0 1 {} other → other = attempt
  /-- A construct is asked at a line that is there and not blank, and its answer
  is taken as it stands. -/
  asked : ∀ turn ∈ attempt.turns, ∃ line, lines[turn.position]? = some line ∧
    Text.trim line ≠ [] ∧ turn.answer =
      ((grammar.constructFor (Text.trim line)).consume lines turn.position turn.id).1
  onward : attempt.turns.Pairwise fun s t => s.position < t.position
  counted : attempt.turns.map (·.id) = List.range' 1 attempt.turns.length
  /-- With room for every heading, what is made of the turns is the document. -/
  whole : (∀ turn ∈ attempt.turns, turn.Fits room) →
    attempt.outline? = some (grammar.read lines) ∧
      grammar.read lines =
        ⟨linked (attempt.turns.filterMap Turn.block?), attempt.turns.filterMap Turn.diagnostic?⟩
  /-- A heading that is too deep is the last thing asked for, and there is no
  document. -/
  stopped : ∀ turn ∈ attempt.turns, ¬ turn.Fits room →
    attempt.outline? = none ∧ attempt.turns.getLast? = some turn

/-- Blocks that came one after the other are linked as the table says. -/
structure ParentsFound (came : List Block) : Prop where
  increase : (linked came).Pairwise fun a b => a.id < b.id
  ids : (linked came).map (·.id) = came.map (·.id)
  /-- The parent named for a block is the one that a search backwards finds,
  and the search by halving finds it among the blocks that hang already. -/
  found : ∀ before b after, came = before ++ b :: after →
    let state := before.foldl Hanging.add {}
    (place state.table b).2.1 = scannedParent before b ∧
      ∀ id, scannedParent before b = some id →
        ∃ index above, position? state.blocks id = some index ∧
          state.blocks[index]? = some above ∧ above.id = id
  /-- And it is there in the end, on both sides. -/
  kept : ∀ before b after, came = before ++ b :: after → ∀ id,
    scannedParent before b = some id →
      (∃ above ∈ linked came, above.id = id ∧ b.id ∈ above.children) ∧
        ∃ own ∈ linked came, own.id = b.id ∧ own.parent = some id

theorem parentsFound_of_numbered {came : List Block} (hnum : Numbered came) :
    ParentsFound came := by
  have hbefore : ∀ {before b after}, came = before ++ b :: after → Numbered before := by
    intro before b after hsplit
    rw [hsplit] at hnum
    exact (List.pairwise_append.mp hnum).1
  refine ⟨(Hanging.Follows.foldl came).numbered hnum, (Hanging.Follows.foldl came).ids, ?_, ?_⟩
  · intro before b after hsplit state
    have hstate : state.Follows before := Hanging.Follows.foldl before
    obtain ⟨table, hplace, -⟩ := hstate.place b
    exact ⟨by rw [hplace], fun id hparent => hstate.found (hbefore hsplit) hparent⟩
  · intro before b after hsplit id hparent
    obtain ⟨⟨above, habove, hid, hchild⟩, own, hown, hownId, hownParent⟩ :=
      (Hanging.Follows.foldl before).linked_add (hbefore hsplit) hparent
    have hlinked : linked came =
        (after.foldl Hanging.add ((before.foldl Hanging.add {}).add b)).blocks := by
      rw [linked, hsplit, List.foldl_append, List.foldl_cons]
    obtain ⟨above', habove', hgrown⟩ := exists_grown_foldl habove after
    obtain ⟨own', hown', hownGrown⟩ := exists_grown_foldl hown after
    rw [hlinked]
    exact ⟨⟨above', habove', hgrown.id.trans hid, hgrown.children.subset hchild⟩,
      own', hown', hownGrown.id.trans hownId, hownGrown.parent.trans hownParent⟩

/-- Whatever constructs a grammar holds and however much room there is, reading
ends: a construct is asked at most once at a line, further down each time, and is
given the next number. If the constructs keep their numbers, the numbers of the
blocks increase and every parent is found. If they keep to the room, there is a
document. -/
theorem Grammar.attempt_asksInOrder (grammar : Grammar) (room : Nat) (lines : List Text) :
    grammar.AsksInOrder room lines (grammar.attempt room lines) ∧
      (grammar.KeepsNumbers → ParentsFound ((grammar.attempt room lines).hung room)) ∧
      (grammar.AnswersWithin room lines →
        (grammar.attempt room lines).outline? = some (grammar.read lines)) := by
  have hruns := grammar.runs_attemptFrom room lines 0 1 {}
  have hasks : grammar.AsksInOrder room lines (grammar.attempt room lines) := {
    ends := hruns
    only := fun other hother => hother.eq_attemptFrom
    asked := fun turn hturn => (hruns.mem hturn).2
    onward := hruns.onward
    counted := hruns.counted
    whole := fun hfits => by
      obtain ⟨hturns, hlast⟩ := hruns.whole hfits
      have hread : grammar.read lines =
          ⟨linked ((grammar.attempt room lines).turns.filterMap Turn.block?),
            (grammar.attempt room lines).turns.filterMap Turn.diagnostic?⟩ := by
        rw [read, turns, attempt, hturns]
      refine ⟨?_, hread⟩
      rw [hread, Attempt.outline?, attempt, hlast]
      rfl
    stopped := fun turn hturn hdeep => by
      obtain ⟨hlast, hturns⟩ := hruns.stopped hturn hdeep
      refine ⟨?_, hturns⟩
      rw [Attempt.outline?, attempt, hlast]
      rfl }
  refine ⟨hasks, fun hkeeps => ?_, fun hwithin => (hasks.whole hwithin.fits).1⟩
  exact parentsFound_of_numbered ((hkeeps.numbered room lines).filter _)

/-- A construct that stops where it began, far behind or far ahead, answers a
heading whose links are made up, and shares the lines with a fence that is
never closed. With one more construct, whose headings are deeper than any table,
the reading breaks off in front of the last line. -/
theorem Grammar.attempt_asksInOrder_restless :
    let restless : Construct :=
      { flag := ['!']
        opens := Text.startsWith ['!']
        consume := fun _ position id =>
          (.ok ⟨id, .heading 2 7, [], [], some 9, [4]⟩, 3 * position - 4) }
    let abysmal : Construct :=
      { flag := ['?']
        opens := Text.startsWith ['?']
        consume := fun _ position id =>
          (.ok ⟨id, .heading 0xFFFFFFFFFFFFFFFF 1, [], [], none, []⟩, position + 1) }
    let grammar := (Grammar.standard.register restless).1
    let deeper := (grammar.register abysmal).1
    let room := Headings.mostLevels
    let lines := ["!", "# a", "\x60\x60\x60", "!", "passed over", " ", "!"].map String.toList
    let more := ["!", "# a", "?", "# b"].map String.toList
    let attempt := grammar.attempt room lines
    let broken := deeper.attempt room more
    (attempt.turns.map fun turn => (turn.position, turn.id)) =
        [(0, 1), (1, 2), (2, 3), (3, 4), (6, 5)] ∧
      grammar.KeepsNumbers ∧ grammar.AnswersWithin room lines ∧
      grammar.AsksInOrder room lines attempt ∧ ParentsFound (attempt.hung room) ∧
      attempt.outline? = some (grammar.read lines) ∧
      (broken.turns.map fun turn => (turn.position, turn.id)) =
        [(0, 1), (1, 2), (2, 3)] ∧
      deeper.KeepsNumbers ∧ deeper.AsksInOrder room more broken ∧
      ParentsFound (broken.hung room) ∧ broken.outline? = none := by
  intro restless abysmal grammar deeper room lines more attempt broken
  have hrestless : restless.KeepsNumber := by
    intro _ _ _ b hb
    cases hb
    rfl
  have habysmal : abysmal.KeepsNumber := by
    intro _ _ _ b hb
    cases hb
    rfl
  have hshallow : restless.AnswersWithin room lines := by
    intro _ _ b hb
    cases hb
    rfl
  have hshort : ∀ line ∈ lines, line.length < room := by decide
  have hkeeps : grammar.KeepsNumbers := forall_mem_register standard_keepsNumbers hrestless
  have hdeeper : deeper.KeepsNumbers := forall_mem_register hkeeps habysmal
  have hwithin : grammar.AnswersWithin room lines :=
    forall_mem_register (standard_answersWithin hshort) hshallow
  obtain ⟨hasks, hfound, hwhole⟩ := Grammar.attempt_asksInOrder grammar room lines
  obtain ⟨hbroken, hfoundBroken, -⟩ := Grammar.attempt_asksInOrder deeper room more
  exact ⟨by decide +kernel, hkeeps, hwithin, hasks, hfound hkeeps, hwhole hwithin,
    by decide +kernel, hdeeper, hbroken, hfoundBroken hdeeper, by decide +kernel⟩

end RequestBook
