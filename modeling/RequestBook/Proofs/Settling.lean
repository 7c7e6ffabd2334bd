import Mathlib.Data.List.Chain
import RequestBook.Proofs.Resolving

/-!
# Resolved text is settled

Resolving a text that has been resolved changes nothing, as long as values
bring no opening braces in and leave none open at their end, and the text had
none outside its placeholders. What has to be seen is that no placeholder is
made at a seam: between what was copied, what was put in, perhaps nothing at
all, and what was kept.

The seams are seen in the pieces. Pieces written one behind the other are read
back as these pieces when no brace on its own stands before another brace
(`pieces_flatMap_written`). In a text that is cut, a brace on its own never
stands before a placeholder, because the placeholder would have begun with it.
So behind such a brace there is a character that is copied, whatever happens
to the placeholders.
-/

namespace RequestBook

namespace Piece

/-- Whether the piece begins with an opening brace. -/
def opens : Piece → Bool
  | plain c => c == '\x7b'
  | placeholder _ => true

/-- The first piece begins no placeholder with the second. -/
def Apart (p q : Piece) : Prop := p = plain '\x7b' → q.opens = false

/-- A brace on its own is followed by a character that is no brace. -/
def Alone (p q : Piece) : Prop := p = plain '\x7b' → ∃ c, c ≠ '\x7b' ∧ q = plain c

theorem head?_written_of_apart {c : Char} {ps : List Piece}
    (h : ∀ q ∈ ps.head?, Apart (plain c) q) : head? (c :: ps.flatMap written) = none := by
  cases hhead : head? (c :: ps.flatMap written) with
  | none => rfl
  | some found =>
      obtain ⟨body, after⟩ := found
      obtain ⟨_, htext⟩ := head?_eq_some_iff.mp hhead
      simp only [written, openingBraces, List.cons_append, List.cons.injEq] at htext
      obtain ⟨rfl, htext⟩ := htext
      cases ps with
      | nil => cases htext
      | cons q qs =>
          have hopens := h q rfl rfl
          cases q with
          | plain d =>
              rw [List.flatMap_cons, written, List.singleton_append, List.cons.injEq] at htext
              rw [opens, htext.1] at hopens
              cases hopens
          | placeholder b => cases hopens

end Piece

/-! ## Pieces that are read back -/

theorem pieces_flatMap_written {ps : List Piece} (hapart : ps.IsChain Piece.Apart)
    (hbody : ∀ body, .placeholder body ∈ ps → Piece.IsBody body) :
    pieces (ps.flatMap Piece.written) = ps := by
  induction ps with
  | nil => rw [List.flatMap_nil, pieces_nil]
  | cons p ps ih =>
      obtain ⟨hfirst, hrest⟩ := List.isChain_cons.mp hapart
      have hread := ih hrest fun body hmem => hbody body (List.mem_cons_of_mem _ hmem)
      rw [List.flatMap_cons]
      cases p with
      | plain c =>
          have hnone := Piece.head?_written_of_apart hfirst
          rw [Piece.written, List.singleton_append, pieces_plain hnone, hread]
      | placeholder body =>
          rw [pieces_placeholder (hbody body List.mem_cons_self), hread]

theorem isBody_of_mem_pieces {t body : Text} (h : .placeholder body ∈ pieces t) :
    Piece.IsBody body := by
  induction t using pieces_induction with
  | hnil =>
      rw [pieces_nil] at h
      cases h
  | hplain c rest hhead ih =>
      rw [pieces_plain hhead] at h
      rcases List.mem_cons.mp h with heq | h
      · cases heq
      · exact ih h
  | hplaceholder b after hb ih =>
      rw [pieces_placeholder hb] at h
      rcases List.mem_cons.mp h with heq | h
      · cases heq
        exact hb
      · exact ih h

/-- A brace before a placeholder would have begun it. -/
theorem pieces_isChain (t : Text) :
    (pieces t).IsChain fun p q => p = .plain '\x7b' → ∃ c, q = .plain c := by
  induction t using pieces_induction with
  | hnil =>
      rw [pieces_nil]
      exact .nil
  | hplain c rest hhead ih =>
      rw [pieces_plain hhead, List.isChain_cons]
      refine ⟨fun q hq hc => ?_, ih⟩
      cases q with
      | plain d => exact ⟨d, rfl⟩
      | placeholder body =>
          have hbody := isBody_of_mem_pieces (List.mem_of_mem_head? hq)
          have hrest := flatMap_written_pieces rest
          obtain ⟨ps, hps⟩ := List.head?_eq_some_iff.mp hq
          rw [hps, List.flatMap_cons] at hrest
          cases hc
          have hlonger : Piece.head? ('\x7b' :: rest) =
              some ('\x7b' :: body, ps.flatMap Piece.written) := by
            refine Piece.head?_eq_some_iff.mpr ⟨⟨by simp, ?_⟩, ?_⟩
            · simpa using hbody.2
            · rw [← hrest]
              simp [Piece.written, openingBraces]
          rw [hhead] at hlonger
          cases hlonger
  | hplaceholder body after hbody ih =>
      rw [pieces_placeholder hbody, List.isChain_cons]
      refine ⟨fun q _ hp => ?_, ih⟩
      cases hp

/-! ## Braces inside -/

/-- Every two opening braces of a text lie inside one of its placeholders. -/
def BracesInside (host : Text) : Prop :=
  ∀ before after, host = before ++ openingBraces ++ after →
    ∃ earlier body later, pieces host = earlier ++ .placeholder body :: later ∧
      (earlier.flatMap Piece.written).length ≤ before.length ∧
      before.length + openingBraces.length ≤
        ((earlier ++ [.placeholder body]).flatMap Piece.written).length

theorem length_flatMap_written_le {ps qs : List Piece} (h : ps <+: qs) :
    (ps.flatMap Piece.written).length ≤ (qs.flatMap Piece.written).length := by
  obtain ⟨more, rfl⟩ := h
  rw [List.flatMap_append, List.length_append]
  exact Nat.le_add_right _ _

/-- Of two braces in a row outside the placeholders, the placeholder that they
were to lie in would have to be one of the two. -/
theorem BracesInside.isChain {host : Text} (h : BracesInside host) :
    (pieces host).IsChain Piece.Alone := by
  rw [List.isChain_iff_forall_rel_of_append_cons_cons]
  intro p q before after hsplit hp
  have hplain := List.isChain_iff_forall_rel_of_append_cons_cons.mp (pieces_isChain host)
  obtain ⟨c, rfl⟩ := hplain hsplit hp
  refine ⟨c, ?_, rfl⟩
  rintro rfl
  subst hp
  have hhost : host = before.flatMap Piece.written ++ openingBraces
      ++ after.flatMap Piece.written := by
    rw [← flatMap_written_pieces host, hsplit]
    simp [Piece.written, openingBraces]
  obtain ⟨earlier, body, later, hpieces, hstart, hstop⟩ := h _ _ hhost
  rw [hsplit] at hpieces
  rcases List.append_eq_append_iff.mp hpieces with ⟨more, rfl, hmore⟩ | ⟨more, rfl, hmore⟩
  · -- the placeholder begins at the first brace or behind it
    cases more with
    | nil => cases hmore
    | cons first more =>
        rw [List.cons_append, List.cons.injEq] at hmore
        obtain ⟨rfl, -⟩ := hmore
        have hle := length_flatMap_written_le (List.prefix_append (before ++ [.plain '\x7b']) more)
        simp only [List.append_assoc, List.singleton_append] at hle
        rw [List.flatMap_append, List.length_append] at hle
        have hone : ([Piece.plain '\x7b'].flatMap Piece.written).length = 1 := rfl
        omega
  · -- the placeholder begins before the braces, and then it ends before them
    cases more with
    | nil => cases hmore
    | cons first more =>
        rw [List.cons_append, List.cons.injEq] at hmore
        obtain ⟨rfl, -⟩ := hmore
        have hle := length_flatMap_written_le
          (List.prefix_append (earlier ++ [.placeholder body]) more)
        simp only [List.append_assoc, List.singleton_append] at hle hstop
        have htwo : openingBraces.length = 2 := rfl
        omega

/-- Braces in a row that begin in a placeholder end in it, because its last
character is no opening brace. -/
theorem length_le_of_openingBraces {body rest before after : Text}
    (h : (Piece.placeholder body).written ++ rest = before ++ (openingBraces ++ after))
    (hlt : before.length < (Piece.placeholder body).written.length) :
    before.length + openingBraces.length ≤ (Piece.placeholder body).written.length := by
  have hclosed : (Piece.placeholder body).written.getLast? = some '\x7d' := by
    simp [Piece.written, closingBraces]
  obtain ⟨more, hmore⟩ : before <+: (Piece.placeholder body).written :=
    List.prefix_of_prefix_length_le (h ▸ List.prefix_append before _)
      (List.prefix_append _ rest) hlt.le
  rw [← hmore] at h hclosed hlt ⊢
  rw [List.append_assoc, List.append_cancel_left_eq] at h
  rw [List.length_append] at hlt ⊢
  cases more with
  | nil => exact absurd hlt (Nat.lt_irrefl _)
  | cons c more =>
      cases more with
      | nil =>
          rw [List.getLast?_concat, Option.some.injEq] at hclosed
          rw [openingBraces, List.singleton_append, List.cons_append, List.cons.injEq,
            hclosed] at h
          exact absurd h.1 (by decide)
      | cons d more => simp [openingBraces]

/-- A brace on its own is never followed by another, so braces in a row begin
in a placeholder. -/
theorem bracesInside_of_isChain {host : Text} (h : (pieces host).IsChain Piece.Alone) :
    BracesInside host := by
  induction host using pieces_induction with
  | hnil =>
      intro before after hhost
      simp [openingBraces] at hhost
  | hplain c rest hhead ih =>
      intro before after hhost
      rw [pieces_plain hhead, List.isChain_cons] at h
      cases before with
      | nil =>
          simp only [openingBraces, List.nil_append, List.cons_append, List.cons.injEq] at hhost
          obtain ⟨rfl, hrest⟩ := hhost
          -- both braces would be copied, but the second is no piece behind the first
          obtain ⟨q, ps, hps⟩ : ∃ q ps, pieces rest = q :: ps := by
            refine List.exists_cons_of_ne_nil fun hnil => ?_
            have hempty := flatMap_written_pieces rest
            rw [hnil, hrest] at hempty
            cases hempty
          obtain ⟨d, hd, rfl⟩ := h.1 q (by rw [hps]; rfl) rfl
          have hwritten := flatMap_written_pieces rest
          rw [hps, hrest, List.flatMap_cons, Piece.written, List.singleton_append,
            List.cons.injEq] at hwritten
          exact absurd hwritten.1 hd
      | cons d before =>
          simp only [List.cons_append, List.cons.injEq] at hhost
          obtain ⟨rfl, hrest⟩ := hhost
          obtain ⟨earlier, body, later, hpieces, hstart, hstop⟩ := ih h.2 before after hrest
          refine ⟨.plain c :: earlier, body, later, ?_, ?_, ?_⟩
          · rw [pieces_plain hhead, hpieces]
            rfl
          · rw [List.flatMap_cons, Piece.written, List.singleton_append]
            exact Nat.succ_le_succ hstart
          · rw [List.cons_append, List.flatMap_cons, Piece.written, List.singleton_append,
              List.length_cons, List.length_cons]
            omega
  | hplaceholder body rest hbody ih =>
      intro before after hhost
      rw [pieces_placeholder hbody, List.isChain_cons] at h
      rw [List.append_assoc] at hhost
      have hwritten := List.prefix_append (Piece.placeholder body).written rest
      have hbefore := List.prefix_append before (openingBraces ++ after)
      rw [← hhost] at hbefore
      rcases Nat.lt_or_ge before.length (Piece.placeholder body).written.length with hlt | hge
      · refine ⟨[], body, pieces rest, pieces_placeholder hbody rest, Nat.zero_le _, ?_⟩
        rw [List.nil_append, List.flatMap_singleton]
        exact length_le_of_openingBraces hhost hlt
      · obtain ⟨more, rfl⟩ := List.prefix_of_prefix_length_le hwritten hbefore hge
        rw [List.append_assoc, List.append_cancel_left_eq, ← List.append_assoc] at hhost
        obtain ⟨earlier, b, later, hpieces, hstart, hstop⟩ := ih h.2 more after hhost
        refine ⟨.placeholder body :: earlier, b, later, ?_, ?_, ?_⟩
        · rw [pieces_placeholder hbody, hpieces]
          rfl
        · rw [List.flatMap_cons, List.length_append, List.length_append]
          omega
        · rw [List.cons_append, List.flatMap_cons, List.length_append, List.length_append]
          omega

theorem bracesInside_iff {host : Text} :
    BracesInside host ↔ (pieces host).IsChain Piece.Alone :=
  ⟨BracesInside.isChain, bracesInside_of_isChain⟩

/-! ## What a text becomes -/

/-- A value that opens nothing: it holds no two opening braces in a row and
does not end with one. -/
def OpensNothing (text : Text) : Prop := ¬ openingBraces <:+: text ∧ ¬ ['\x7b'] <:+ text

namespace Engine

variable (engine : Engine) (vars : Variables) (draws : Draws)

/-- The pieces that come in the place of one. -/
def settle : Piece → List Piece
  | .plain c => [.plain c]
  | .placeholder body =>
    match engine.render vars draws body with
    | .ok text => text.map .plain
    | .error _ => [.placeholder body]

theorem flatMap_written_plain (text : Text) :
    (text.map Piece.plain).flatMap Piece.written = text := by
  rw [List.flatMap_map]
  exact List.flatMap_singleton' text

theorem flatMap_written_settle (p : Piece) :
    (engine.settle vars draws p).flatMap Piece.written = engine.replace vars draws p := by
  cases p with
  | plain c => rfl
  | placeholder body =>
      rw [settle, replace]
      cases engine.render vars draws body with
      | ok text => exact flatMap_written_plain text
      | error e => exact List.flatMap_singleton _ _

/-- What was put in is copied, and what was kept is kept again. -/
theorem flatMap_replace_settle (p : Piece) :
    (engine.settle vars draws p).flatMap (engine.replace vars draws) =
      engine.replace vars draws p := by
  cases p with
  | plain c => rfl
  | placeholder body =>
      rw [settle]
      cases hrender : engine.render vars draws body with
      | ok text =>
          rw [replace, hrender, List.flatMap_map]
          exact List.flatMap_singleton' text
      | error e => exact List.flatMap_singleton _ _

variable {engine vars draws}

theorem eq_of_mem_settle {p : Piece} {body : Text}
    (h : .placeholder body ∈ engine.settle vars draws p) : p = .placeholder body := by
  cases p with
  | plain c =>
      cases List.mem_singleton.mp h
  | placeholder b =>
      rw [settle] at h
      split at h
      · simp at h
      · exact (List.mem_singleton.mp h).symm

theorem isChain_plain {text : Text} (h : ¬ openingBraces <:+: text) :
    (text.map Piece.plain).IsChain Piece.Apart := by
  rw [List.isChain_iff_forall_rel_of_append_cons_cons]
  intro p q before after hsplit hp
  cases q with
  | placeholder body =>
      have hmem : Piece.placeholder body ∈ text.map Piece.plain := by
        rw [hsplit]
        simp
      simp at hmem
  | plain d =>
      refine beq_false_of_ne ?_
      rintro rfl
      refine h ⟨before.flatMap Piece.written, after.flatMap Piece.written, ?_⟩
      rw [← flatMap_written_plain text, hsplit, hp]
      simp [Piece.written, openingBraces]

/-- Only a brace on its own leaves a brace at the end of what it becomes. -/
theorem eq_of_getLast?_settle {p : Piece}
    (hvalue : ∀ body text, p = .placeholder body → engine.render vars draws body = .ok text →
      OpensNothing text)
    (h : (engine.settle vars draws p).getLast? = some (.plain '\x7b')) :
    p = .plain '\x7b' := by
  cases p with
  | plain c => exact Option.some.inj h
  | placeholder body =>
      rw [settle] at h
      split at h
      · next text hrender =>
          rw [List.getLast?_map, Option.map_eq_some_iff] at h
          obtain ⟨c, hc, hplain⟩ := h
          cases hplain
          obtain ⟨front, rfl⟩ := List.getLast?_eq_some_iff.mp hc
          exact absurd (List.suffix_append front _) (hvalue body _ rfl hrender).2
      · cases h

/-- No placeholder is made at a seam. -/
theorem isChain_flatMap_settle {ps : List Piece} (halone : ps.IsChain Piece.Alone)
    (hvalues : ∀ body text, .placeholder body ∈ ps → engine.render vars draws body = .ok text →
      OpensNothing text) :
    (ps.flatMap (engine.settle vars draws)).IsChain Piece.Apart := by
  induction ps with
  | nil => exact .nil
  | cons p ps ih =>
      obtain ⟨hfirst, hrest⟩ := List.isChain_cons.mp halone
      rw [List.flatMap_cons, List.isChain_append]
      refine ⟨?_, ih hrest fun b t hmem => hvalues b t (List.mem_cons_of_mem _ hmem), ?_⟩
      · cases p with
        | plain c => exact .singleton _
        | placeholder body =>
            rw [settle]
            split
            · next text hrender =>
                exact isChain_plain (hvalues body text List.mem_cons_self hrender).1
            · exact .singleton _
      · intro x hx y hy hbrace
        rw [hbrace] at hx
        have hp := eq_of_getLast?_settle
          (fun b t hb => hvalues b t (hb ▸ List.mem_cons_self)) hx
        cases ps with
        | nil => cases hy
        | cons q qs =>
            obtain ⟨c, hc, rfl⟩ := hfirst q rfl hp
            cases hy
            exact beq_false_of_ne hc

end Engine

/-- Resolved text is a fixed point, when the host has its braces inside its
placeholders and no value opens anything. -/
theorem resolve_resolve {engine : Engine} (h : engine.Deterministic) (vars : Variables)
    (draws draws' : Draws) {host : Text} (hbraces : BracesInside host)
    (hvalues : ∀ body text, .placeholder body ∈ pieces host →
      engine.render vars draws body = .ok text → OpensNothing text) :
    engine.resolve vars draws' (engine.resolve vars draws host) =
      engine.resolve vars draws host := by
  have hout : engine.resolve vars draws host =
      ((pieces host).flatMap (engine.settle vars draws)).flatMap Piece.written := by
    rw [Engine.resolve_eq_flatMap h, List.flatMap_assoc]
    simp only [Engine.flatMap_written_settle]
  have hread : pieces (engine.resolve vars draws host) =
      (pieces host).flatMap (engine.settle vars draws) := by
    rw [hout]
    refine pieces_flatMap_written (Engine.isChain_flatMap_settle hbraces.isChain hvalues) ?_
    intro body hmem
    obtain ⟨p, hp, hsettle⟩ := List.mem_flatMap.mp hmem
    rw [Engine.eq_of_mem_settle hsettle] at hp
    exact isBody_of_mem_pieces hp
  have hsame : engine.replace vars draws' = engine.replace vars draws :=
    funext (Engine.replace_draws h vars draws' draws)
  rw [Engine.resolve_eq_flatMap h, hread, List.flatMap_assoc, hsame]
  simp only [Engine.flatMap_replace_settle]
  exact (Engine.resolve_eq_flatMap h vars draws host).symm

/-- Behind a letter an empty value and then one that begins with a brace, a
placeholder that is kept with braces in its body, and a brace at the end. -/
theorem resolve_resolve_at_seams :
    let engine : Engine := ⟨[], ⟨⟨2024, 3, 15⟩, 10, 0, 0, 0⟩⟩
    let vars : Variables := [("e".toList, []), ("v".toList, "\x7by".toList)]
    let draws : Draws := fun _ => 0
    let draws' : Draws := fun _ => 1
    let host : Text := ("\x7bx\x7b\x7be\x7d\x7d\x7b\x7bv\x7d\x7d"
      ++ "\x7b\x7b$no\x7b\x7b\x7d\x7d-\x7b").toList
    engine.Deterministic ∧ BracesInside host ∧
      (∀ body text, .placeholder body ∈ pieces host →
        engine.render vars draws body = .ok text → OpensNothing text) ∧
      engine.resolve vars draws host =
        "\x7bx\x7by\x7b\x7b$no\x7b\x7b\x7d\x7d-\x7b".toList ∧
      engine.resolve vars draws' (engine.resolve vars draws host) =
        engine.resolve vars draws host := by
  intro engine vars draws draws' host
  have hdraws : engine.Deterministic := by
    intro tag evaluator hmem
    cases hmem
  have hpieces : pieces host = [.plain '\x7b', .plain 'x', .placeholder "e".toList,
      .placeholder "v".toList, .placeholder "$no\x7b\x7b".toList, .plain '-', .plain '\x7b'] := by
    decide +kernel
  have hbraces : BracesInside host := by
    rw [bracesInside_iff, hpieces]
    simp [Piece.Alone]
  have hvalues : ∀ body text, .placeholder body ∈ pieces host →
      engine.render vars draws body = .ok text → OpensNothing text := by
    have he : engine.render vars draws "e".toList = .ok [] := by rfl
    have hv : engine.render vars draws "v".toList = .ok "\x7by".toList := by rfl
    have hno : engine.render vars draws "$no\x7b\x7b".toList =
        .error (.unknownEvaluator "$no\x7b\x7b".toList) := by rfl
    intro body text hmem hrender
    rw [hpieces] at hmem
    simp only [List.mem_cons, reduceCtorEq, Piece.placeholder.injEq, List.not_mem_nil, false_or,
      or_false] at hmem
    rcases hmem with rfl | rfl | rfl
    · rw [he] at hrender
      cases hrender
      exact ⟨by decide, by decide⟩
    · rw [hv] at hrender
      cases hrender
      exact ⟨by decide, by decide⟩
    · rw [hno] at hrender
      cases hrender
  have hout : engine.resolve vars draws host =
      "\x7bx\x7by\x7b\x7b$no\x7b\x7b\x7d\x7d-\x7b".toList := by decide +kernel
  exact ⟨hdraws, hbraces, hvalues, hout,
    resolve_resolve hdraws vars draws draws' hbraces hvalues⟩

end RequestBook
