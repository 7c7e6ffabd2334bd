import Mathlib.Data.List.Basic
import RequestBook.Engine
import RequestBook.Proofs.Trim

/-!
# Resolving is one scan

An engine resolves a text by looking for the pattern of a placeholder, and the
pattern is matched with backtracking. Nothing of that shows in the result. A
body holds no closing brace, so wherever a run of its characters is cut short
the next character is none either, and giving characters back never helps:
`Piece.head?_eq_some_iff` says that a text begins with at most one placeholder
and which it is. What is left is `scan`, which goes through the text once, from
left to right, and asks only for the longest run.

Where the placeholders of a text are is therefore a matter of the text alone.
Each is replaced, or kept, for itself.
-/

namespace RequestBook

/-! ## One way to match -/

namespace Regex

theorem mem_ways_char {c : Char} {t : Text} {m : Match} :
    m ∈ (Regex.char c).ways t ↔ t = c :: m.rest ∧ m.groups = [] := by
  cases t with
  | nil => simp [char, ways]
  | cons d t =>
      rw [char, ways]
      by_cases hd : d = c
      · subst hd
        simp only [beq_self_eq_true, if_true, List.mem_singleton, List.cons.injEq, true_and]
        constructor
        · rintro rfl
          exact ⟨rfl, rfl⟩
        · rintro ⟨rfl, hgroups⟩
          cases m
          cases hgroups
          rfl
      · simp [hd]

theorem mem_ways_char_andThen {c : Char} {r : Regex} {t : Text} {m : Match} :
    m ∈ ((Regex.char c).andThen r).ways t ↔ ∃ rest, t = c :: rest ∧ m ∈ r.ways rest := by
  rw [ways]
  simp only [List.mem_flatMap, List.mem_map, mem_ways_char]
  constructor
  · rintro ⟨a, ⟨ht, hgroups⟩, n, hn, rfl⟩
    rw [hgroups, List.nil_append]
    exact ⟨a.rest, ht, hn⟩
  · rintro ⟨rest, ht, hm⟩
    exact ⟨⟨[], rest⟩, ⟨ht, rfl⟩, m, hm, rfl⟩

/-- A repetition can stop behind any of its characters but not before the
first. -/
theorem mem_restsAfter_iff {accepts : Char → Bool} {shorter : List Text} {t rest : Text} :
    rest ∈ restsAfter accepts shorter t ↔
      rest ∈ shorter ∨ ∃ run, run ≠ [] ∧ (∀ c ∈ run, accepts c = true) ∧ t = run ++ rest := by
  induction t generalizing shorter with
  | nil => simp [restsAfter]
  | cons c t ih =>
      rw [restsAfter]
      cases hc : accepts c with
      | false =>
          rw [if_neg Bool.false_ne_true]
          refine ⟨.inl, fun h => h.resolve_right ?_⟩
          rintro ⟨run, hne, hall, hrun⟩
          cases run with
          | nil => exact hne rfl
          | cons d run =>
              rw [List.cons_append, List.cons.injEq] at hrun
              rw [← hrun.1] at hall
              rw [hall c List.mem_cons_self] at hc
              cases hc
      | true =>
          rw [if_pos rfl, ih, List.mem_cons, or_assoc]
          constructor
          · rintro (rfl | hshorter | ⟨run, hne, hall, rfl⟩)
            · exact .inr ⟨[c], by simp, by simpa using hc, rfl⟩
            · exact .inl hshorter
            · refine .inr ⟨c :: run, by simp, ?_, rfl⟩
              intro d hd
              rcases List.mem_cons.mp hd with rfl | hd
              · exact hc
              · exact hall d hd
          · rintro (hshorter | ⟨run, hne, hall, hrun⟩)
            · exact .inr (.inl hshorter)
            · cases run with
              | nil => exact absurd rfl hne
              | cons d run =>
                  rw [List.cons_append, List.cons.injEq] at hrun
                  obtain ⟨rfl, rfl⟩ := hrun
                  cases run with
                  | nil => exact .inl rfl
                  | cons e run =>
                      refine .inr (.inr ⟨e :: run, by simp, ?_, rfl⟩)
                      exact fun x hx => hall x (List.mem_cons_of_mem _ hx)

theorem mem_ways_group_andThen {accepts : Char → Bool} {r : Regex} {t : Text} {m : Match} :
    m ∈ ((group (many accepts)).andThen r).ways t ↔
      ∃ run rest, run ≠ [] ∧ (∀ c ∈ run, accepts c = true) ∧ t = run ++ rest ∧
        ∃ n ∈ r.ways rest, m = ⟨(t, rest) :: n.groups, n.rest⟩ := by
  rw [ways, ways, ways]
  simp only [List.map_map, List.mem_flatMap, List.mem_map, mem_restsAfter_iff, List.not_mem_nil,
    false_or, Function.comp_apply]
  constructor
  · rintro ⟨_, ⟨rest, ⟨run, hne, hall, ht⟩, rfl⟩, n, hn, rfl⟩
    exact ⟨run, rest, hne, hall, ht, n, hn, rfl⟩
  · rintro ⟨run, rest, hne, hall, ht, n, hn, rfl⟩
    exact ⟨_, ⟨rest, ⟨run, hne, hall, ht⟩, rfl⟩, n, hn, rfl⟩

end Regex

namespace Piece

/-- A text that can stand between the braces of a placeholder. -/
def IsBody (body : Text) : Prop := body ≠ [] ∧ '\x7d' ∉ body

theorem mem_ways_pattern {t : Text} {m : Regex.Match} :
    m ∈ pattern.ways t ↔
      ∃ body after, IsBody body ∧ t = (placeholder body).written ++ after ∧
        m = ⟨[(body ++ closingBraces ++ after, closingBraces ++ after)], after⟩ := by
  have hclass : ∀ body : Text,
      (∀ c ∈ body, decide (c ≠ '\x7d') = true) ↔ '\x7d' ∉ body := by
    intro body
    simp only [decide_eq_true_eq]
    exact ⟨fun h hmem => h _ hmem rfl, fun h c hc heq => h (heq ▸ hc)⟩
  simp only [pattern, Regex.mem_ways_char_andThen, Regex.mem_ways_group_andThen,
    Regex.mem_ways_char, hclass]
  constructor
  · rintro ⟨_, rfl, s, rfl, body, _, hne, hno, rfl, n, ⟨_, rfl, rfl, hgroups⟩, rfl⟩
    refine ⟨body, n.rest, ⟨hne, hno⟩, ?_, ?_⟩
    · simp [written, openingBraces, closingBraces]
    · simp [hgroups, closingBraces]
  · rintro ⟨body, after, ⟨hne, hno⟩, rfl, rfl⟩
    refine ⟨_, rfl, body ++ closingBraces ++ after, ?_, body, closingBraces ++ after, hne, hno,
      List.append_assoc _ _ _, ⟨[], after⟩, ⟨_, rfl, rfl, rfl⟩, rfl⟩
    simp

section Body

variable {body : Text} (hbody : IsBody body) (after : Text)

include hbody

theorem IsBody.ne_closing {c : Char} (hc : c ∈ body) : decide (c ≠ '\x7d') = true :=
  decide_eq_true fun heq => hbody.2 (heq ▸ hc)

/-- A body is the longest run before the closing braces. -/
theorem IsBody.takeWhile_append :
    (body ++ (closingBraces ++ after)).takeWhile (· ≠ '\x7d') = body := by
  rw [List.takeWhile_append_of_pos fun c hc => hbody.ne_closing hc, closingBraces]
  simp

theorem IsBody.dropWhile_append :
    (body ++ (closingBraces ++ after)).dropWhile (· ≠ '\x7d') = closingBraces ++ after := by
  rw [List.dropWhile_append_of_pos fun c hc => hbody.ne_closing hc, closingBraces]
  simp

end Body

/-- Two placeholders that begin at one place are one. -/
theorem written_append_inj {body body' after after' : Text} (hbody : IsBody body)
    (hbody' : IsBody body')
    (h : (placeholder body).written ++ after = (placeholder body').written ++ after') :
    body = body' ∧ after = after' := by
  simp only [written, List.append_assoc, List.append_cancel_left_eq] at h
  have hsame : body = body' := by
    rw [← hbody.takeWhile_append after, h, hbody'.takeWhile_append after']
  subst hsame
  simpa using h

/-- A text begins with a placeholder in one way or not at all. -/
theorem head?_eq_some_iff {t body after : Text} :
    head? t = some (body, after) ↔
      IsBody body ∧ t = (placeholder body).written ++ after := by
  have htext : ∀ b a : Text,
      (⟨[(b ++ closingBraces ++ a, closingBraces ++ a)], a⟩ : Regex.Match).text 0 = b := by
    intro b a
    simp [Regex.Match.text]
  rw [head?, Option.map_eq_some_iff]
  constructor
  · rintro ⟨m, hm, hpair⟩
    obtain ⟨b, a, hb, ht, rfl⟩ := mem_ways_pattern.mp (List.mem_of_mem_head? hm)
    rw [htext, Prod.mk.injEq] at hpair
    obtain ⟨rfl, rfl⟩ := hpair
    exact ⟨hb, ht⟩
  · rintro ⟨hbody, ht⟩
    have hmem := mem_ways_pattern.mpr ⟨body, after, hbody, ht, rfl⟩
    obtain ⟨m, hm⟩ : ∃ m, pattern.match? t = some m := by
      rw [← Option.isSome_iff_exists, Regex.match?, List.isSome_head?]
      exact List.ne_nil_of_mem hmem
    obtain ⟨b, a, hb, ht', rfl⟩ := mem_ways_pattern.mp (List.mem_of_mem_head? hm)
    obtain ⟨rfl, rfl⟩ := written_append_inj hb hbody (ht'.symm.trans ht)
    exact ⟨_, hm, by rw [htext]⟩

theorem head?_nil : head? [] = none := rfl

end Piece

/-! ## The pieces of a text -/

theorem pieces_nil : pieces [] = [] := by
  rw [pieces]
  simp [Piece.head?_nil]

theorem pieces_plain {c : Char} {rest : Text} (h : Piece.head? (c :: rest) = none) :
    pieces (c :: rest) = .plain c :: pieces rest := by
  rw [pieces]
  split
  · next hsome =>
      rw [h] at hsome
      cases hsome
  · rfl

theorem pieces_placeholder {body : Text} (hbody : Piece.IsBody body) (after : Text) :
    pieces ((Piece.placeholder body).written ++ after) = .placeholder body :: pieces after := by
  have h : Piece.head? ((Piece.placeholder body).written ++ after) = some (body, after) :=
    Piece.head?_eq_some_iff.mpr ⟨hbody, rfl⟩
  rw [pieces]
  split
  · next b a hsome =>
      rw [h, Option.some.injEq, Prod.mk.injEq] at hsome
      obtain ⟨rfl, rfl⟩ := hsome
      rfl
  · next hnone =>
      rw [h] at hnone
      cases hnone

/-- What holds of a text holds of the text behind its first piece. -/
theorem pieces_induction {P : Text → Prop} (hnil : P [])
    (hplain : ∀ c rest, Piece.head? (c :: rest) = none → P rest → P (c :: rest))
    (hplaceholder : ∀ body after, Piece.IsBody body → P after →
      P ((Piece.placeholder body).written ++ after)) (t : Text) : P t := by
  induction hn : t.length using Nat.strongRecOn generalizing t with
  | ind n ih =>
    cases hhead : Piece.head? t with
    | some found =>
        obtain ⟨body, after⟩ := found
        have hlt := Piece.length_lt_of_head? hhead
        obtain ⟨hbody, rfl⟩ := Piece.head?_eq_some_iff.mp hhead
        exact hplaceholder body after hbody (ih _ (by omega) after rfl)
    | none =>
        cases t with
        | nil => exact hnil
        | cons c rest =>
            rw [List.length_cons] at hn
            exact hplain c rest hhead (ih _ (by omega) rest rfl)

/-- Nothing of a text is lost in cutting it. -/
theorem flatMap_written_pieces (t : Text) : (pieces t).flatMap Piece.written = t := by
  induction t using pieces_induction with
  | hnil => rw [pieces_nil, List.flatMap_nil]
  | hplain c rest h ih =>
      rw [pieces_plain h, List.flatMap_cons, ih]
      rfl
  | hplaceholder body after hbody ih =>
      rw [pieces_placeholder hbody, List.flatMap_cons, ih]

theorem pieces_of_not_holds {t : Text} (h : ¬ openingBraces <:+: t) :
    pieces t = t.map .plain := by
  induction t using pieces_induction with
  | hnil => rw [pieces_nil, List.map_nil]
  | hplain c rest hhead ih =>
      rw [pieces_plain hhead, List.map_cons, ih fun hrest => h (List.infix_cons hrest)]
  | hplaceholder body after hbody ih =>
      refine absurd ?_ h
      rw [Piece.written, List.append_assoc, List.append_assoc]
      exact (List.prefix_append _ _).isInfix

/-! ## Engines that do not draw -/

/-- An evaluator whose answer hangs on the expression and the moment alone. -/
def Evaluator.Deterministic (evaluator : Evaluator) : Prop :=
  ∀ e now draws draws', evaluator e now draws = evaluator e now draws'

/-- An engine all of whose evaluators are deterministic. -/
def Engine.Deterministic (engine : Engine) : Prop :=
  ∀ tag evaluator, (tag, evaluator) ∈ engine.evaluators → Evaluator.Deterministic evaluator

namespace Engine

variable {engine : Engine} (h : engine.Deterministic) (vars : Variables) (draws draws' : Draws)

include h

theorem valueOf_draws (text : Text) (e : Expression) :
    engine.valueOf vars draws text e = engine.valueOf vars draws' text e := by
  rw [valueOf, valueOf]
  cases hfound : engine.evaluators.lookup e.tag with
  | none => rfl
  | some evaluator =>
      obtain ⟨before, after, hall, _⟩ := List.lookup_eq_some_iff.mp hfound
      have hmem : (e.tag, evaluator) ∈ engine.evaluators :=
        hall ▸ List.mem_append_right _ List.mem_cons_self
      simp only [h e.tag evaluator hmem e engine.now draws draws']

theorem render_draws (text : Text) :
    engine.render vars draws text = engine.render vars draws' text := by
  rw [render, render]
  refine congrArg _ (funext fun e => ?_)
  rw [valueOf_draws h vars draws draws']

theorem replace_draws (p : Piece) :
    engine.replace vars draws p = engine.replace vars draws' p := by
  cases p with
  | plain c => rfl
  | placeholder body => rw [replace, replace, render_draws h vars draws draws']

omit h in
/-- A text that opens no placeholder has no piece to replace. -/
theorem flatMap_replace_of_not_holds {t : Text} (hno : ¬ openingBraces <:+: t) :
    (pieces t).flatMap (engine.replace vars draws) = t := by
  rw [pieces_of_not_holds hno, List.flatMap_map]
  exact List.flatMap_singleton' t

/-- The text with each of its pieces replaced for itself. -/
theorem resolve_eq_flatMap (host : Text) :
    engine.resolve vars draws host = (pieces host).flatMap (engine.replace vars draws) := by
  rw [resolve]
  split
  · have hplace : ∀ p : Piece × Nat,
        engine.replace vars (draws.branch p.2) p.1 = engine.replace vars draws p.1 :=
      fun p => replace_draws h vars _ _ p.1
    simp only [hplace]
    rw [← List.flatMap_map Prod.fst, List.zipIdx_map_fst]
  · next hno =>
      rw [Text.holds_iff] at hno
      exact (flatMap_replace_of_not_holds vars draws hno).symm

end Engine

/-! ## One scan -/

/-- A text resolved in one pass, given what stands for the body of a
placeholder. Where two opening braces stand, the longest run of characters
without a closing brace is taken behind them. When there are any and two closing
braces follow, the whole is replaced, or kept if there is nothing to replace it
by; anywhere else one character is copied. -/
def scan (render : Text → Except EvalError Text) : Text → Text
  | [] => []
  | c :: rest =>
    let behind := (c :: rest).drop openingBraces.length
    let body := behind.takeWhile (· ≠ '\x7d')
    let closing := behind.dropWhile (· ≠ '\x7d')
    if openingBraces <+: c :: rest ∧ body ≠ [] ∧ closingBraces <+: closing then
      (match render body with
        | .ok text => text
        | .error _ => openingBraces ++ body ++ closingBraces)
        ++ scan render (closing.drop closingBraces.length)
    else c :: scan render rest
termination_by t => t.length
decreasing_by
  · have hdrop := ((c :: rest).drop openingBraces.length).dropWhile_suffix
      fun d => decide (d ≠ '\x7d')
    have := hdrop.length_le
    simp only [openingBraces, closingBraces, List.length_drop, List.length_cons] at this ⊢
    omega
  · exact Nat.lt_succ_self _

theorem scan_nil (render : Text → Except EvalError Text) : scan render [] = [] := by
  rw [scan]

section Scan

variable (render : Text → Except EvalError Text)

/-- Where no placeholder begins the scan copies one character. -/
theorem scan_plain {c : Char} {rest : Text} (h : Piece.head? (c :: rest) = none) :
    scan render (c :: rest) = c :: scan render rest := by
  rw [scan]
  refine if_neg ?_
  rintro ⟨⟨behind, hopen⟩, hne, ⟨after, hclose⟩⟩
  rw [← hopen, List.drop_left] at hne hclose
  have hall := List.takeWhile_append_dropWhile (p := fun d => decide (d ≠ '\x7d')) (l := behind)
  have hbody : Piece.IsBody (behind.takeWhile fun d => decide (d ≠ '\x7d')) := by
    refine ⟨hne, fun hmem => ?_⟩
    simpa using List.mem_takeWhile_imp hmem
  have hhead : Piece.head? (c :: rest) =
      some (behind.takeWhile fun d => decide (d ≠ '\x7d'), after) := by
    refine Piece.head?_eq_some_iff.mpr ⟨hbody, ?_⟩
    rw [← hopen, Piece.written, List.append_assoc, List.append_assoc, hclose, hall]
  rw [h] at hhead
  cases hhead

/-- Where a placeholder begins the scan takes it whole. -/
theorem scan_placeholder {body : Text} (hbody : Piece.IsBody body) (after : Text) :
    scan render ((Piece.placeholder body).written ++ after) =
      (match render body with
        | .ok text => text
        | .error _ => (Piece.placeholder body).written) ++ scan render after := by
  have htake := hbody.takeWhile_append after
  have hdrop := hbody.dropWhile_append after
  have hcons : (Piece.placeholder body).written ++ after =
      '\x7b' :: ('\x7b' :: (body ++ (closingBraces ++ after))) := by
    simp [Piece.written, openingBraces]
  rw [hcons, scan]
  simp only [openingBraces, List.length_cons, List.length_nil, List.drop_succ_cons,
    List.drop_zero, htake, hdrop]
  rw [if_pos]
  · rw [closingBraces]
    rfl
  · exact ⟨⟨_, rfl⟩, hbody.1, List.prefix_append _ _⟩

end Scan

/-- The scan replaces the pieces of a text one by one. -/
theorem scan_eq_flatMap (engine : Engine) (vars : Variables) (draws : Draws) (host : Text) :
    scan (engine.render vars draws) host =
      (pieces host).flatMap (engine.replace vars draws) := by
  induction host using pieces_induction with
  | hnil => rw [scan_nil, pieces_nil, List.flatMap_nil]
  | hplain c rest h ih =>
      rw [scan_plain _ h, pieces_plain h, List.flatMap_cons, ih]
      rfl
  | hplaceholder body after hbody ih =>
      rw [scan_placeholder _ hbody, pieces_placeholder hbody, List.flatMap_cons, ih]
      rfl

/-- Resolving is one scan from left to right. The early answer for a text that
opens no placeholder is the answer of the scan, and where the placeholders are
does not hang on what they are replaced by. -/
theorem resolve_eq_scan {engine : Engine} (h : engine.Deterministic) (vars : Variables)
    (draws : Draws) (host : Text) :
    engine.resolve vars draws host = scan (engine.render vars draws) host ∧
      (¬ openingBraces <:+: host → scan (engine.render vars draws) host = host) ∧
      (pieces host).flatMap Piece.written = host ∧
      engine.resolve vars draws host = (pieces host).flatMap (engine.replace vars draws) := by
  have hpieces := Engine.resolve_eq_flatMap h vars draws host
  have hscan := scan_eq_flatMap engine vars draws host
  exact ⟨hpieces.trans hscan.symm,
    fun hno => hscan.trans (Engine.flatMap_replace_of_not_holds vars draws hno),
    flatMap_written_pieces host, hpieces⟩

/-- A body that begins with a brace and stands for braces, a tag that no
evaluator has, braces around nothing, a body with a line feed and braces that
are never closed. -/
theorem resolve_nested_failing_unclosed :
    let engine : Engine :=
      ⟨[("$date_time".toList, Evaluator.dateTime)], ⟨⟨2024, 3, 15⟩, 10, 0, 0, 0⟩⟩
    let vars : Variables := [("\x7ba".toList, "\x7b\x7bb".toList), ("b".toList, "x".toList)]
    let draws : Draws := fun _ => 0
    let host : Text := ("\x7b\x7b\x7ba\x7d\x7d\x7b\x7b$no\x7d\x7d\x7b\x7b\x7d\x7d"
      ++ "\x7b\x7bb\n\x7d\x7d-\x7b\x7bopen").toList
    let out : Text := ("\x7b\x7bb\x7b\x7b$no\x7d\x7d\x7b\x7b\x7d\x7d"
      ++ "x-\x7b\x7bopen").toList
    engine.Deterministic ∧ scan (engine.render vars draws) host = out ∧
      engine.resolve vars draws host = scan (engine.render vars draws) host ∧
      (¬ openingBraces <:+: host → scan (engine.render vars draws) host = host) ∧
      (pieces host).flatMap Piece.written = host ∧
      engine.resolve vars draws host = (pieces host).flatMap (engine.replace vars draws) := by
  intro engine vars draws host out
  have hdraws : engine.Deterministic := by
    intro tag evaluator hmem e now draws draws'
    obtain ⟨rfl, rfl⟩ : tag = "$date_time".toList ∧ evaluator = Evaluator.dateTime := by
      simpa [engine] using hmem
    rfl
  have hscan : scan (engine.render vars draws) host = out := by decide +kernel
  exact ⟨hdraws, hscan, resolve_eq_scan hdraws vars draws host⟩

end RequestBook
