import Mathlib.Data.List.DropRight
import RequestBook.Text

/-!
# Marks are not lost in trimming

Which construct a line begins is asked of the trimmed line, and the construct
then looks at the line as it stands. The two agree because no mark holds a
blank: trimming takes blanks off the ends and stops before the first mark,
whatever follows it. `after?_trimEnd` is that fact for one end of the line,
and all else here is the same fact seen from another side.
-/

namespace RequestBook.Text

theorem after?_eq_some_iff {mark t rest : Text} :
    after? mark t = some rest ↔ t = mark ++ rest := by
  induction mark generalizing t with
  | nil => simp [after?]
  | cons m mark ih =>
      cases t with
      | nil => simp [after?]
      | cons c t =>
          by_cases hmc : m = c
          · simp [after?, hmc, ih]
          · simp [after?, hmc, Ne.symm hmc]

/-- The mark at the head of a text, in the words of lists. -/
theorem startsWith_iff {mark t : Text} : startsWith mark t = true ↔ mark <+: t := by
  rw [startsWith, Option.isSome_iff_exists]
  constructor
  · rintro ⟨rest, h⟩
    exact ⟨rest, (after?_eq_some_iff.mp h).symm⟩
  · rintro ⟨rest, h⟩
    exact ⟨rest, after?_eq_some_iff.mpr h.symm⟩

theorem after?_eq_none_iff {mark t : Text} : after? mark t = none ↔ ¬ mark <+: t := by
  rw [← startsWith_iff, startsWith, Bool.not_eq_true, Option.isSome_eq_false_iff,
    Option.isNone_iff_eq_none]

theorem holds_iff {part t : Text} : holds part t = true ↔ part <:+: t := by
  induction t with
  | nil => simp [holds]
  | cons c t ih => rw [holds, Bool.or_eq_true, startsWith_iff, ih, List.infix_cons_iff]

/-! ## Either end -/

theorem trimEnd_eq_rdropWhile (t : Text) : trimEnd t = t.rdropWhile isBlank := rfl

theorem trimEnd_nil : trimEnd [] = [] := rfl

/-- A character that is no blank keeps what stands before the end apart from
what stands at it. -/
theorem trimEnd_cons {c : Char} (hc : isBlank c = false) (t : Text) :
    trimEnd (c :: t) = c :: trimEnd t := by
  rw [trimEnd, trimEnd, List.reverse_cons, List.dropWhile_append]
  cases hd : t.reverse.dropWhile isBlank with
  | nil => simp [hc]
  | cons d rest => simp

theorem trimStart_eq_nil_iff {t : Text} : trimStart t = [] ↔ allBlank t = true := by
  rw [trimStart, List.dropWhile_eq_nil_iff, allBlank, List.all_eq_true]

theorem trimEnd_eq_nil_iff {t : Text} : trimEnd t = [] ↔ allBlank t = true := by
  rw [trimEnd, List.reverse_eq_nil_iff, List.dropWhile_eq_nil_iff, allBlank, List.all_eq_true]
  simp only [List.mem_reverse]

/-- What is left of a text that is not all blank begins with a character that
is none. -/
theorem trimStart_cases (t : Text) :
    trimStart t = [] ∨ ∃ c rest, isBlank c = false ∧ trimStart t = c :: rest := by
  rw [trimStart]
  cases h : t.dropWhile isBlank with
  | nil => exact .inl rfl
  | cons c rest =>
      have hc := List.head?_dropWhile_not isBlank t
      rw [h] at hc
      exact .inr ⟨c, rest, by simpa using hc, rfl⟩

theorem trim_eq_nil_iff {t : Text} : trim t = [] ↔ allBlank t = true := by
  rw [trim]
  rcases trimStart_cases t with h | ⟨c, rest, hc, h⟩
  · rw [h, ← trimStart_eq_nil_iff, h, trimEnd_nil]
  · rw [h, trimEnd_cons hc, ← trimStart_eq_nil_iff, h]
    simp

theorem isEmpty_trim {t : Text} (h : allBlank t = false) : (trim t).isEmpty = false := by
  rw [List.isEmpty_eq_false_iff, Ne, trim_eq_nil_iff, h]
  exact Bool.false_ne_true

theorem trimStart_trim (t : Text) : trimStart (trim t) = trim t := by
  rw [trim]
  rcases trimStart_cases t with h | ⟨c, rest, hc, h⟩
  · rw [h]; rfl
  · rw [h, trimEnd_cons hc, trimStart]
    simp [hc]

theorem trim_trim (t : Text) : trim (trim t) = trim t := by
  rw [trim, trimStart_trim, trim, trimEnd_eq_rdropWhile, trimEnd_eq_rdropWhile,
    List.rdropWhile_idempotent]

theorem trimStart_of_trim {t : Text} (h : trim t = t) : trimStart t = t := by
  rw [← h, trimStart_trim]

theorem trimEnd_of_trim {t : Text} (h : trim t = t) : trimEnd t = t := by
  rwa [trim, trimStart_of_trim h] at h

/-- Nothing is left in trimming but what stood together. -/
theorem trim_infix_self (t : Text) : trim t <:+: t := by
  have hend : trimEnd (trimStart t) <+: trimStart t := List.rdropWhile_prefix isBlank _
  exact hend.isInfix.trans (List.dropWhile_suffix isBlank).isInfix

theorem trimStart_eq_self_iff {t : Text} :
    trimStart t = t ↔ ∀ c, t.head? = some c → isBlank c = false := by
  cases t with
  | nil => simp [trimStart]
  | cons c t =>
      rw [trimStart, List.dropWhile_eq_self_iff]
      simp

theorem trimEnd_eq_self_iff {t : Text} :
    trimEnd t = t ↔ ∀ c, t.getLast? = some c → isBlank c = false := by
  rw [trimEnd_eq_rdropWhile, List.rdropWhile_eq_self_iff]
  constructor
  · intro h c hc
    have hne : t ≠ [] := by
      rintro rfl
      cases hc
    rw [List.getLast?_eq_some_getLast hne, Option.some.injEq] at hc
    simpa [hc] using h hne
  · intro h hne
    simpa using h _ (List.getLast?_eq_some_getLast hne)

theorem trimStart_blanks_append {blanks : Text} (h : allBlank blanks = true) (t : Text) :
    trimStart (blanks ++ t) = trimStart t :=
  List.dropWhile_append_of_pos (List.all_eq_true.mp h)

theorem trimEnd_append_blanks {blanks : Text} (h : allBlank blanks = true) (t : Text) :
    trimEnd (t ++ blanks) = trimEnd t := by
  rw [trimEnd, List.reverse_append, List.dropWhile_append_of_pos]
  · rfl
  · intro c hc
    exact List.all_eq_true.mp h c (List.mem_reverse.mp hc)

theorem trimStart_append {s : Text} (h : trimStart s ≠ []) (t : Text) :
    trimStart (s ++ t) = trimStart s ++ t := by
  have hstart : ¬ (s.dropWhile isBlank).isEmpty = true := by
    rw [List.isEmpty_iff]
    exact h
  rw [trimStart, List.dropWhile_append, if_neg hstart]
  rfl

theorem trimEnd_append {t : Text} (h : trimEnd t ≠ []) (s : Text) :
    trimEnd (s ++ t) = s ++ trimEnd t := by
  have hend : ¬ (t.reverse.dropWhile isBlank).isEmpty = true := by
    rw [List.isEmpty_iff, ← List.reverse_eq_nil_iff]
    exact h
  rw [trimEnd, List.reverse_append, List.dropWhile_append, if_neg hend, List.reverse_append,
    List.reverse_reverse]
  rfl

/-- The end of a text is the end of its last part. -/
theorem trimEnd_append_of_ne_nil {t : Text} (h : trimEnd t = t) (hne : t ≠ []) (s : Text) :
    trimEnd (s ++ t) = s ++ t := by
  rw [trimEnd_append (by rwa [h]), h]

/-! ## Marks -/

theorem after?_trimEnd {mark : Text} (hmark : ∀ c ∈ mark, isBlank c = false) (t : Text) :
    after? mark (trimEnd t) = (after? mark t).map trimEnd := by
  induction mark generalizing t with
  | nil => rfl
  | cons m mark ih =>
      have hm : isBlank m = false := hmark m (by simp)
      have ih' := ih fun c hc => hmark c (by simp [hc])
      cases t with
      | nil => rfl
      | cons c t =>
          by_cases hmc : m = c
          · subst hmc
            rw [trimEnd_cons hm, after?, after?, if_pos rfl, if_pos rfl, ih']
          · rw [after?, if_neg hmc, Option.map_none]
            by_cases hc : isBlank c = true
            · cases he : trimEnd (c :: t) with
              | nil => rfl
              | cons d rest =>
                  -- the end of a text is cut off, so what is left begins as it did
                  have hd : d = c := by
                    have hpre := List.rdropWhile_prefix isBlank (l := c :: t)
                    rw [← trimEnd_eq_rdropWhile, he, List.cons_prefix_cons] at hpre
                    exact hpre.1
                  rw [after?, if_neg (by rw [hd]; exact hmc)]
            · rw [trimEnd_cons (by simpa using hc), after?, if_neg hmc]

/-- A mark without blanks is found by the trimmed line and by the line whose
head alone is trimmed. -/
theorem startsWith_trim {mark : Text} (hmark : ∀ c ∈ mark, isBlank c = false) (t : Text) :
    startsWith mark (trim t) = startsWith mark (trimStart t) := by
  rw [startsWith, startsWith, trim, after?_trimEnd hmark, Option.isSome_map]

end RequestBook.Text
