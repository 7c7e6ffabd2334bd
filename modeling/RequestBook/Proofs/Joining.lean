import Mathlib.Data.List.DropRight
import RequestBook.Proofs.Resolving

/-!
# Resolving two texts joined

A text may be resolved in parts. When the first part leaves no brace open and
the second does not begin with a closing one, the joined text has the
placeholders of the two parts and no other (`pieces_append`), so resolving it is
resolving the parts and joining what comes out (`resolve_append`).

Only a placeholder across the seam could spoil that. It would begin at an
opening brace of the first part, and the first part has a closing brace behind
that one. A body stops at the first closing brace, so the placeholder would have
to end there or one character further, and what is excluded is that this
character is the first of the second part.
-/

namespace RequestBook

/-! ## Braces left open -/

/-- A text that leaves no brace open: no opening brace stands behind the last
closing one, and none at all stands in a text without closing ones. -/
def BracesClosed (t : Text) : Prop := '\x7b' ∉ t.rtakeWhile (· ≠ '\x7d')

instance (t : Text) : Decidable (BracesClosed t) :=
  inferInstanceAs (Decidable (¬ '\x7b' ∈ t.rtakeWhile (· ≠ '\x7d')))

/-- Behind every opening brace stands a closing one. -/
theorem bracesClosed_iff {t : Text} :
    BracesClosed t ↔ ∀ before after, t = before ++ '\x7b' :: after → '\x7d' ∈ after := by
  constructor
  · rintro h before after rfl
    by_contra hno
    have hall : ∀ c ∈ after.reverse, decide (c ≠ '\x7d') = true := by
      intro c hc
      refine decide_eq_true fun heq => hno ?_
      exact heq ▸ List.mem_reverse.mp hc
    refine h ?_
    rw [List.rtakeWhile, List.reverse_append, List.reverse_cons, List.append_assoc,
      List.takeWhile_append_of_pos hall]
    simp
  · intro h hmem
    obtain ⟨before, after, htail⟩ := List.append_of_mem hmem
    have hsplit : t = (t.rdropWhile (· ≠ '\x7d') ++ before) ++ '\x7b' :: after := by
      rw [List.append_assoc, ← htail, List.rdropWhile_append_rtakeWhile]
    have hclosing : '\x7d' ∈ t.rtakeWhile (· ≠ '\x7d') := by
      rw [htail]
      exact List.mem_append_right _ (List.mem_cons_of_mem _ (h _ _ hsplit))
    simpa using List.mem_rtakeWhile_imp hclosing

theorem BracesClosed.of_append {s t : Text} (h : BracesClosed (s ++ t)) : BracesClosed t := by
  rw [bracesClosed_iff] at h ⊢
  rintro before after rfl
  exact h (s ++ before) after (List.append_assoc _ _ _).symm

/-! ## The seam -/

/-- No placeholder begins in the first part and ends in the second. -/
theorem Piece.head?_append_eq_none {a b : Text} (ha : BracesClosed a)
    (hb : b.head? ≠ some '\x7d') (hne : a ≠ []) (h : head? a = none) :
    head? (a ++ b) = none := by
  rw [Option.eq_none_iff_forall_ne_some]
  rintro ⟨body, after⟩ hcross
  obtain ⟨hbody, hwritten⟩ := head?_eq_some_iff.mp hcross
  rw [written, List.append_assoc] at hwritten
  -- the first closing brace of the joined text stands in the first part
  have hclosing : '\x7d' ∈ a := by
    obtain ⟨c, rest, rfl⟩ := List.exists_cons_of_ne_nil hne
    have hopen : c = '\x7b' := (List.cons.inj hwritten).1
    subst hopen
    exact List.mem_cons_of_mem _ (bracesClosed_iff.mp ha [] rest rfl)
  have hnone : '\x7d' ∉ openingBraces ++ body := by
    rw [List.mem_append, not_or]
    exact ⟨by decide, hbody.2⟩
  rcases List.append_eq_append_iff.mp hwritten with ⟨more, hmore, -⟩ | ⟨more, rfl, hmore⟩
  · exact hnone (hmore ▸ List.mem_append_left _ hclosing)
  · -- and so does the second, which is not the first character behind the seam
    rcases more with _ | ⟨c, _ | ⟨d, rest⟩⟩
    · rw [List.append_nil] at hclosing
      exact hnone hclosing
    · rw [closingBraces, List.singleton_append, List.cons_append, List.cons.injEq] at hmore
      exact hb (hmore.2 ▸ rfl)
    · simp only [closingBraces, List.cons_append, List.nil_append, List.cons.injEq] at hmore
      obtain ⟨rfl, rfl, -⟩ := hmore
      have hinside : head? (openingBraces ++ body ++ '\x7d' :: '\x7d' :: rest) =
          some (body, rest) := by
        refine head?_eq_some_iff.mpr ⟨hbody, ?_⟩
        rw [written, List.append_assoc (openingBraces ++ body)]
        rfl
      rw [h] at hinside
      cases hinside

/-- The pieces of two texts joined are those of both. -/
theorem pieces_append {a b : Text} (ha : BracesClosed a) (hb : b.head? ≠ some '\x7d') :
    pieces (a ++ b) = pieces a ++ pieces b := by
  induction a using pieces_induction with
  | hnil => rw [pieces_nil, List.nil_append, List.nil_append]
  | hplain c rest hhead ih =>
      have hcross := Piece.head?_append_eq_none ha hb (List.cons_ne_nil c rest) hhead
      have hrest : BracesClosed rest := BracesClosed.of_append (s := [c]) ha
      rw [List.cons_append] at hcross ⊢
      rw [pieces_plain hcross, pieces_plain hhead, ih hrest, List.cons_append]
  | hplaceholder body after hbody ih =>
      rw [List.append_assoc, pieces_placeholder hbody, pieces_placeholder hbody,
        ih ha.of_append, List.cons_append]

/-- Resolving distributes over joining two texts, when the first leaves no brace
open and the second does not begin with a closing one. -/
theorem resolve_append {engine : Engine} (h : engine.Deterministic) (vars : Variables)
    (draws draws' draws'' : Draws) {a b : Text} (ha : BracesClosed a)
    (hb : b.head? ≠ some '\x7d') :
    engine.resolve vars draws (a ++ b) =
      engine.resolve vars draws' a ++ engine.resolve vars draws'' b := by
  have hfirst : engine.replace vars draws = engine.replace vars draws' :=
    funext (Engine.replace_draws h vars draws draws')
  have hsecond : engine.replace vars draws = engine.replace vars draws'' :=
    funext (Engine.replace_draws h vars draws draws'')
  rw [Engine.resolve_eq_flatMap h, pieces_append ha hb, List.flatMap_append,
    Engine.resolve_eq_flatMap h, Engine.resolve_eq_flatMap h, ← hfirst, ← hsecond]

/-- Before the seam a placeholder in three braces, one that is kept, braces
around nothing and a closing brace too many; behind it a brace and a
placeholder, one that an evaluator answers, and an opening brace at the end. -/
theorem resolve_append_between_braces :
    let engine : Engine :=
      ⟨[("$date_time".toList, Evaluator.dateTime)], ⟨⟨2024, 3, 15⟩, 10, 0, 0, 0⟩⟩
    let vars : Variables := [("\x7bv".toList, "one".toList), ("v".toList, "two".toList)]
    let draws : Draws := fun _ => 0
    let a : Text := "\x7b\x7b\x7bv\x7d\x7d\x7b\x7b$no\x7d\x7d\x7b\x7b\x7d\x7d\x7d".toList
    let b : Text :=
      "\x7b\x7b\x7bv\x7d\x7d-\x7b\x7b$date_time.tomorrow.year\x7d\x7d\x7b".toList
    engine.Deterministic ∧ BracesClosed a ∧ b.head? ≠ some '\x7d' ∧
      engine.resolve vars draws (a ++ b) =
        "one\x7b\x7b$no\x7d\x7d\x7b\x7b\x7d\x7d\x7done-2024\x7b".toList ∧
      engine.resolve vars draws (a ++ b) =
        engine.resolve vars draws a ++ engine.resolve vars draws b := by
  intro engine vars draws a b
  have hdraws : engine.Deterministic := by
    intro tag evaluator hmem e now draws draws'
    obtain ⟨rfl, rfl⟩ : tag = "$date_time".toList ∧ evaluator = Evaluator.dateTime := by
      simpa [engine] using hmem
    rfl
  have hclosed : BracesClosed a := by decide +kernel
  have hhead : b.head? ≠ some '\x7d' := by decide +kernel
  have hout : engine.resolve vars draws (a ++ b) =
      "one\x7b\x7b$no\x7d\x7d\x7b\x7b\x7d\x7d\x7done-2024\x7b".toList := by decide +kernel
  exact ⟨hdraws, hclosed, hhead, hout, resolve_append hdraws vars draws draws draws hclosed hhead⟩

-- Without either condition the seam may make a placeholder.
example : pieces ("\x7b".toList ++ "\x7bv\x7d\x7d".toList) = [.placeholder ['v']] ∧
    pieces ("\x7b\x7bv\x7d".toList ++ "\x7d".toList) = [.placeholder ['v']] := by
  decide +kernel

end RequestBook
