import RequestBook.Engine
import RequestBook.Proofs.Spelling

/-!
# Who answers an expression

Whether an expression is the name of a variable or goes to an evaluator is
asked of its tag, and the tag is what is left of a text after its format and
its operation were cut off, its blanks removed, its segments parted and its
letters made small. Yet one character decides: the first of the text that is
no blank.

Each cut keeps that character in front or leaves nothing at all, and it leaves
nothing only behind `=`, `+`, `-` and `.`, none of which is the mark of an
evaluator (`segmentsOf_cases`). The small form keeps it too, since no letter
becomes the mark and the mark has no other form (`lowerChar_cases`). This is
where the tables of letters come in: every run of capitals begins behind the
marks, and is moved to code points that lie behind them as well.

So a name that does not begin with the mark is looked up whole, whatever else
it holds, and an expression that does begin with it never sees a variable.
-/

namespace RequestBook

open Expression (evaluatorMark)

/-! ## Small forms -/

namespace Text

/-- A number that is no code point stands for the character zero. -/
theorem toNat_ofNat_cases (code : Nat) :
    (Char.ofNat code).toNat = code ∨ (Char.ofNat code).toNat = 0 := by
  by_cases hvalid : code.isValidChar
  · exact .inl (by rw [Char.ofNat, dif_pos hvalid]; rfl)
  · exact .inr (by rw [Char.ofNat, dif_neg hvalid]; rfl)

/-- The small form of a character begins with the mark only if it is the mark. -/
theorem mapCase_cases (c : Char) :
    ∃ d rest, mapCase lowerRuns lowerTexts c = d :: rest ∧
      (d = evaluatorMark ↔ c = evaluatorMark) := by
  have hruns : ∀ run ∈ lowerRuns, 65 ≤ run.first ∧ 65 ≤ (run.first : Int) + run.offset := by
    decide +kernel
  have htexts : ∀ entry ∈ lowerTexts,
      65 ≤ entry.1 ∧ ∃ code ∈ entry.2.head?, Char.ofNat code ≠ evaluatorMark := by
    decide +kernel
  have hmark : evaluatorMark.toNat = 36 := rfl
  rw [mapCase]
  split
  · next image hlookup =>
      obtain ⟨before, after, hsplit, -⟩ := List.lookup_eq_some_iff.mp hlookup
      have hmem : (c.toNat, image) ∈ lowerTexts := by
        rw [hsplit]
        exact List.mem_append_right _ List.mem_cons_self
      obtain ⟨hcode, code, hhead, hother⟩ := htexts _ hmem
      obtain ⟨codes, himage⟩ := List.head?_eq_some_iff.mp hhead
      have himage : image = code :: codes := himage
      refine ⟨Char.ofNat code, codes.map Char.ofNat, by rw [himage, List.map_cons], ?_⟩
      refine ⟨fun h => absurd h hother, fun h => ?_⟩
      rw [h, hmark] at hcode
      omega
  · split
    · next run hfind =>
        have hmem := List.mem_of_find?_eq_some hfind
        have hcovers := List.find?_some hfind
        obtain ⟨hfirst, hmoved⟩ := hruns run hmem
        simp only [CaseRun.covers, Bool.and_eq_true, decide_eq_true_eq] at hcovers
        refine ⟨_, [], rfl, fun h => ?_, fun h => ?_⟩
        · have himage : 65 ≤ run.image c.toNat := by
            rw [CaseRun.image, Int.ofNat_eq_natCast]
            omega
          have hcode := toNat_ofNat_cases (run.image c.toNat)
          rw [h, hmark] at hcode
          omega
        · rw [h, hmark] at hcovers
          omega
    · exact ⟨c, [], rfl, Iff.rfl⟩

theorem lowerChar_cases (before : Text) (c : Char) (after : Text) :
    ∃ d rest, lowerChar before c after = d :: rest ∧
      (d = evaluatorMark ↔ c = evaluatorMark) := by
  rw [lowerChar]
  split
  · next h =>
      subst h
      split
      · exact ⟨_, [], rfl, by decide⟩
      · exact ⟨_, [], rfl, by decide⟩
  · exact mapCase_cases c

theorem head?_lower (t : Text) :
    (lower t).head? = some evaluatorMark ↔ t.head? = some evaluatorMark := by
  cases t with
  | nil => simp [lower, lowerFrom]
  | cons c t =>
      obtain ⟨d, rest, hform, hmark⟩ := lowerChar_cases [] c t
      rw [lower, lowerFrom, hform]
      simp [hmark]

end Text

/-! ## What the cuts leave in front -/

namespace Expression

variable {c : Char} {t : Text}

theorem cutFormat_cases (c : Char) (t : Text) :
    ((cutFormat (c :: t)).1 = [] ∧ c = '=') ∨ ∃ rest, (cutFormat (c :: t)).1 = c :: rest := by
  rw [cutFormat, Text.cut?]
  cases hafter : Text.after? formatMark (c :: t) with
  | some rest =>
      have hmark := Text.after?_eq_some_iff.mp hafter
      exact .inl ⟨rfl, (List.cons.inj hmark).1⟩
  | none =>
      cases Text.cut? formatMark t with
      | none => exact .inr ⟨t, rfl⟩
      | some parts => exact .inr ⟨parts.1, rfl⟩

theorem cutOperation_cases (c : Char) (t : Text) :
    ((cutOperation (c :: t)).1 = [] ∧ Text.IsSign c) ∨
      ∃ rest, (cutOperation (c :: t)).1 = c :: rest := by
  rw [cutOperation]
  by_cases hsign : Text.IsSign c
  · cases operationHead? (c :: t) with
    | some found => exact .inl ⟨rfl, hsign⟩
    | none => exact .inr ⟨_, rfl⟩
  · rw [operationHead?_eq_none fun h => absurd h hsign]
    exact .inr ⟨_, rfl⟩

theorem segmentsOf_cases (hc : Text.isBlank c = false) (t : Text) :
    ((segmentsOf (c :: t)).headD [] = [] ∧ c = segmentMark) ∨
      ∃ rest, (segmentsOf (c :: t)).headD [] = c :: rest := by
  have hkept : (c :: t).filter (fun c => !Text.isBlank c) =
      c :: t.filter fun c => !Text.isBlank c := Text.withoutBlanks_cons_full hc t
  rw [segmentsOf, hkept]
  by_cases hmark : c = segmentMark
  · rw [hmark, Text.fields_cons_self]
    exact .inl ⟨rfl, rfl⟩
  · rw [Text.fields_cons_of_ne hmark]
    exact .inr ⟨_, rfl⟩

/-- The first segment begins as the text does, or is empty behind a character
that is no mark. -/
theorem head?_firstSegment (hc : Text.isBlank c = false) (t : Text) :
    ((segmentsOf (cutOperation (cutFormat (c :: t)).1).1).headD []).head? = some evaluatorMark ↔
      c = evaluatorMark := by
  have hempty : ((segmentsOf []).headD []).head? = none := rfl
  rcases cutFormat_cases c t with ⟨hpath, rfl⟩ | ⟨path, hpath⟩
  · rw [hpath, cutOperation, hempty]
    decide
  · rw [hpath]
    rcases cutOperation_cases c path with ⟨hpart, hsign⟩ | ⟨part, hpart⟩
    · rw [hpart, hempty]
      rcases hsign with rfl | rfl <;> decide
    · rw [hpart]
      rcases segmentsOf_cases hc part with ⟨hfirst, rfl⟩ | ⟨first, hfirst⟩
      · rw [hfirst]
        decide
      · rw [hfirst, List.head?_cons, Option.some.injEq]

/-- An expression is for an evaluator if its text begins with the mark. -/
theorem isBuiltin_iff {input : Text} {e : Expression} (h : parse input = .ok e) :
    e.isBuiltin = true ↔
      input.find? (fun c => !Text.isBlank c) = some evaluatorMark := by
  rw [← List.head?_filter, ← Text.withoutBlanks, ← Text.head?_trimStart]
  rw [parse, Text.trim] at h
  rcases Text.trimStart_cases input with hblank | ⟨c, rest, hc, hstart⟩
  · rw [hblank] at h
    cases h
  · rw [hstart, Text.trimEnd_cons hc] at h
    have htag : Text.lower
        ((segmentsOf (cutOperation (cutFormat (c :: Text.trimEnd rest)).1).1).headD []) = e.tag :=
      congrArg tag (Except.ok.inj h)
    rw [isBuiltin, ← htag, Text.startsWith_iff, List.singleton_prefix_iff_head?_eq_some,
      Text.head?_lower, head?_firstSegment hc, hstart, List.head?_cons, Option.some.injEq]

theorem text_of_parse {input : Text} {e : Expression} (h : parse input = .ok e) :
    e.text = Text.trim input := by
  rw [parse] at h
  split at h
  · cases h
  · rw [← Except.ok.inj h]

/-- Only a blank text is no expression. -/
theorem exists_parse {input : Text} (h : (input.find? fun c => !Text.isBlank c).isSome) :
    ∃ e, parse input = .ok e := by
  rw [List.find?_isSome] at h
  obtain ⟨c, hc, hfull⟩ := h
  have hsome : (Text.trim input).isEmpty = false := by
    rw [List.isEmpty_eq_false_iff, ne_eq, Text.trim_eq_nil_iff, Text.allBlank, List.all_eq_true]
    intro hall
    simp [hall c hc] at hfull
  rw [parse]
  simp only [hsome]
  exact ⟨_, rfl⟩

end Expression

/-! ## Answers -/

namespace Engine

variable (engine : Engine) (vars : Variables) (draws : Draws) {text : Text} {e : Expression}

/-- The name of a variable is the whole text without the blanks at its ends. -/
theorem valueOf_variable (h : Expression.parse text = .ok e) (hname : e.isBuiltin = false) :
    engine.valueOf vars draws text e =
      .ok (.text ((vars.lookup (Text.trim text)).getD text)) := by
  rw [valueOf, hname, Expression.text_of_parse h]
  rfl

/-- An evaluator is not given the variables. -/
theorem valueOf_builtin (hbuiltin : e.isBuiltin = true) (others : Variables) :
    engine.valueOf vars draws text e = engine.valueOf others draws text e := by
  rw [valueOf, valueOf, if_pos hbuiltin, if_pos hbuiltin]

/-- The first character that is no blank says who answers: with the mark an
evaluator, which knows of no variable, and otherwise the variable of that name,
which is the text itself where nobody has set it. -/
theorem answers_by_first_character {c : Char}
    (hfirst : text.find? (fun c => !Text.isBlank c) = some c) :
    (c ≠ '$' →
      engine.evaluate vars draws text = .ok (.text ((vars.lookup (Text.trim text)).getD text)) ∧
      engine.render vars draws text = .ok ((vars.lookup (Text.trim text)).getD text)) ∧
    (c = '$' → ∀ others : Variables,
      engine.evaluate vars draws text = engine.evaluate others draws text ∧
      engine.render vars draws text = engine.render others draws text) := by
  have hfull : (text.find? fun c => !Text.isBlank c).isSome := Option.isSome_of_eq_some hfirst
  obtain ⟨e, he⟩ := Expression.exists_parse hfull
  have hbuiltin := Expression.isBuiltin_iff he
  rw [hfirst, Option.some.injEq] at hbuiltin
  simp only [evaluate, render, he, bind, Except.bind]
  constructor
  · intro hother
    have hname : e.isBuiltin = false := by
      rw [Bool.eq_false_iff, ne_eq, hbuiltin]
      exact hother
    rw [engine.valueOf_variable vars draws he hname]
    exact ⟨rfl, rfl⟩
  · intro hmark others
    rw [engine.valueOf_builtin vars draws (hbuiltin.mpr hmark) others]
    exact ⟨rfl, rfl⟩

/-- A name with a hyphen, an operation and a format in it, which is set in one
map and not in the other, and an expression for an evaluator, behind a blank. -/
theorem answers_name_like_operation :
    let engine := standard ⟨⟨2024, 3, 15⟩, 10, 0, 0, 0⟩
    let draws : Draws := fun _ => 0
    let name := " rate-1.x + 2 => yyyy ".toList
    let vars : Variables := [("rate-1.x + 2 => yyyy".toList, ['7'])]
    let expression := "\u00A0$Date_Time.now + 1d".toList
    (engine.evaluate vars draws name = .ok (.text ['7']) ∧
      engine.render [] draws name = .ok name) ∧
    engine.render vars draws expression = engine.render [] draws expression := by
  intro engine draws name vars expression
  have hname : name.find? (fun c => !Text.isBlank c) = some 'r' := by decide
  have hexpression : expression.find? (fun c => !Text.isBlank c) = some '$' := by decide
  have hset := ((engine.answers_by_first_character vars draws hname).1 (by decide)).1
  have hunset := ((engine.answers_by_first_character [] draws hname).1 (by decide)).2
  have hsame := (engine.answers_by_first_character vars draws hexpression).2 rfl []
  have hfound : (vars.lookup (Text.trim name)).getD name = ['7'] := by decide
  rw [hfound] at hset
  exact ⟨⟨hset, hunset⟩, hsame.2⟩

end Engine

end RequestBook
