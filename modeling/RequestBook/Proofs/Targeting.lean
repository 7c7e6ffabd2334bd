import RequestBook.Proofs.Spelling
import RequestBook.Request

/-!
# A target holds what it was put together from

A target is glued from four parts, the path and the query of the url, the
segments and the parameters, and each seam has its exceptions: a slash that is
there already, an ampersand that is there already, a part that is missing. What
matters is whether the parts can be told from the whole again.

The first seam is the question mark. The path that is put before it has none,
since that of the url ends before the first one and the segments bring none in,
so the target is cut where it was glued (`target_parts`), whatever further
question marks the query has. The second is the ampersand: with or without one at
the end of the first query, the pieces of two queries are those of the first and
then those of the second (`queryPieces_queryWith`). A parameter is never an empty
piece, because it has an equals sign.
-/

namespace RequestBook

namespace Text

variable {c : Char} {s t : Text}

theorem endsWith_singleton_iff : endsWith [c] t = true ↔ t.getLast? = some c := by
  rw [endsWith, startsWith_iff, List.reverse_singleton, List.singleton_prefix_iff_head?_eq_some,
    List.head?_reverse]

/-- What stands before the first of a character. -/
def before (c : Char) (t : Text) : Text := t.takeWhile (· ≠ c)

/-- What stands behind the first of a character, nothing if there is none. -/
def behind (c : Char) (t : Text) : Text := (t.dropWhile (· ≠ c)).drop 1

theorem cut?_singleton (c : Char) (t : Text) :
    (cut? [c] t).getD (t, []) = (before c t, behind c t) := by
  induction t with
  | nil => rfl
  | cons d t ih =>
      by_cases hd : c = d
      · subst hd
        simp [cut?, after?, before, behind]
      · have hafter : after? [c] (d :: t) = none := by rw [after?, if_neg hd]
        have hne : d ≠ c := Ne.symm hd
        rw [cut?, hafter]
        simp only [before, behind] at ih ⊢
        rw [List.takeWhile_cons_of_pos (by simpa using hne),
          List.dropWhile_cons_of_pos (by simpa using hne)]
        cases hcut : cut? [c] t with
        | none =>
            rw [hcut, Option.getD_none, Prod.mk.injEq] at ih
            rw [← ih.1, ← ih.2]
            rfl
        | some parts =>
            rw [hcut, Option.getD_some] at ih
            rw [ih]
            rfl

theorem not_mem_before (c : Char) (t : Text) : c ∉ before c t := by
  intro h
  simpa using List.mem_takeWhile_imp h

theorem before_append (h : c ∉ s) (t : Text) : before c (s ++ c :: t) = s := by
  rw [before, List.takeWhile_append_of_pos, List.takeWhile_cons_of_neg (by simp), List.append_nil]
  intro d hd
  simpa using fun hdc : d = c => h (hdc ▸ hd)

theorem behind_append (h : c ∉ s) (t : Text) : behind c (s ++ c :: t) = t := by
  rw [behind, List.dropWhile_append_of_pos, List.dropWhile_cons_of_neg (by simp)]
  · rfl
  · intro d hd
    simpa using fun hdc : d = c => h (hdc ▸ hd)

theorem before_of_not_mem (h : c ∉ s) : before c s = s := by
  rw [before, List.takeWhile_eq_self_iff]
  intro d hd
  simpa using fun hdc : d = c => h (hdc ▸ hd)

theorem behind_of_not_mem (h : c ∉ s) : behind c s = [] := by
  rw [behind, List.dropWhile_eq_nil_iff.mpr, List.drop_nil]
  intro d hd
  simpa using fun hdc : d = c => h (hdc ▸ hd)

end Text

namespace Request

/-- What a query holds: the pieces between its ampersands, empty ones left out. -/
def queryPieces (query : Text) : List Text :=
  (Text.fields '&' query).filter fun piece => !piece.isEmpty

/-- A parameter as it stands in a query. -/
def paramPiece (param : Text × Text) : Text := param.1 ++ ['='] ++ param.2

variable {path query more : Text} {segments : List Text}

/-! ## The path -/

theorem pathWith_eq (path : Text) (segments : List Text) :
    pathWith path segments =
      if segments = [] then path
      else path ++ (if path.getLast? = some '/' then [] else ['/']) ++ Text.join ['/'] segments := by
  rw [pathWith]
  by_cases hnone : segments = []
  · simp [hnone]
  · by_cases hslash : path.getLast? = some '/'
    · simp [hnone, hslash, Text.endsWith_singleton_iff.mpr hslash]
    · have hends : Text.endsWith ['/'] path = false := by
        rwa [Bool.eq_false_iff, ne_eq, Text.endsWith_singleton_iff]
      simp [hnone, hslash, hends]

theorem mark_not_mem_pathWith (hpath : '?' ∉ path) (hsegments : ∀ s ∈ segments, '?' ∉ s) :
    '?' ∉ pathWith path segments := by
  rw [pathWith_eq]
  split
  · exact hpath
  · simp only [List.mem_append, not_or]
    refine ⟨⟨hpath, ?_⟩, fun hmem => ?_⟩
    · split <;> decide
    · rcases Text.mem_join hmem with hslash | ⟨s, hs, hmark⟩
      · exact absurd hslash (by decide)
      · exact hsegments s hs hmark

/-! ## The query -/

theorem queryPieces_nil : queryPieces [] = [] := rfl

theorem queryPieces_append (query more : Text) :
    queryPieces (query ++ '&' :: more) = queryPieces query ++ queryPieces more := by
  rw [queryPieces, Text.fields_append, List.filter_append]
  rfl

/-- Where two queries meet there is an ampersand, and an empty piece at most. -/
theorem queryPieces_queryWith (query more : Text) :
    queryPieces (queryWith query more) = queryPieces query ++ queryPieces more := by
  rw [queryWith]
  split
  · next hquery =>
      rw [List.isEmpty_iff.mp hquery]
      rfl
  · split
    · next hmore => rw [List.isEmpty_iff.mp hmore, queryPieces_nil, List.append_nil]
    · split
      · next hends =>
          -- the ampersand at the end stands before an empty piece, which is left out
          rw [Text.endsWith_singleton_iff, List.getLast?_eq_some_iff] at hends
          obtain ⟨front, rfl⟩ := hends
          rw [List.append_assoc, List.singleton_append, queryPieces_append, queryPieces_append,
            queryPieces_nil, List.append_nil]
      · rw [List.append_assoc, List.singleton_append, queryPieces_append]

theorem queryWith_eq_nil_iff : queryWith query more = [] ↔ query = [] ∧ more = [] := by
  rw [queryWith]
  by_cases hquery : query = []
  · simp [hquery]
  · by_cases hmore : more = []
    · simp [hquery, hmore]
    · simp only [List.isEmpty_iff, hquery, hmore, if_false]
      split <;> simp [hquery]

variable {param : Fields}

theorem paramQuery_eq (param : Fields) :
    paramQuery param = Text.join ['&'] (param.entries.map paramPiece) := rfl

theorem paramQuery_eq_nil_iff : paramQuery param = [] ↔ param.entries = [] := by
  rw [paramQuery_eq]
  cases param.entries with
  | nil => exact iff_of_true rfl rfl
  | cons entry entries =>
      refine iff_of_false (fun hnil => ?_) (List.cons_ne_nil _ _)
      have hpiece : paramPiece entry = [] := by
        cases entries with
        | nil => rwa [List.map_singleton, Text.join, List.intercalate_singleton] at hnil
        | cons next entries =>
            rw [List.map_cons, List.map_cons, Text.join, List.intercalate_cons_cons] at hnil
            simp at hnil
      simp [paramPiece] at hpiece

theorem queryPieces_paramQuery
    (h : ∀ entry ∈ param.entries, '&' ∉ entry.1 ∧ '&' ∉ entry.2) :
    queryPieces (paramQuery param) = param.entries.map paramPiece := by
  rw [paramQuery_eq]
  by_cases hnone : param.entries = []
  · rw [hnone]
    rfl
  · rw [queryPieces, Text.fields_join (by simpa using hnone), List.filter_eq_self]
    · intro piece hpiece
      obtain ⟨entry, -, rfl⟩ := List.mem_map.mp hpiece
      simp [paramPiece]
    · intro piece hpiece
      obtain ⟨entry, hentry, rfl⟩ := List.mem_map.mp hpiece
      simp [paramPiece, h entry hentry]

/-! ## The target -/

theorem target_eq (r : Request) :
    r.target =
      if queryWith (Text.behind '?' r.url) (paramQuery r.param) = [] then
        pathWith (Text.before '?' r.url) r.pathSegments
      else
        pathWith (Text.before '?' r.url) r.pathSegments ++
          '?' :: queryWith (Text.behind '?' r.url) (paramQuery r.param) := by
  rw [target, Text.cut?_singleton]
  simp only [List.isEmpty_iff, List.append_assoc, List.singleton_append]

/-- The target is cut at its first question mark into the path with the segments
and the query with the parameters. -/
theorem target_parts {r : Request} (h : ∀ s ∈ r.pathSegments, '?' ∉ s) :
    Text.before '?' r.target = pathWith (Text.before '?' r.url) r.pathSegments ∧
      Text.behind '?' r.target = queryWith (Text.behind '?' r.url) (paramQuery r.param) ∧
      ('?' ∈ r.target ↔ queryWith (Text.behind '?' r.url) (paramQuery r.param) ≠ []) := by
  have hpath := mark_not_mem_pathWith (Text.not_mem_before '?' r.url) h
  rw [target_eq]
  split
  · next hquery =>
      rw [Text.before_of_not_mem hpath, Text.behind_of_not_mem hpath, hquery]
      exact ⟨rfl, rfl, iff_of_false hpath fun hne => hne rfl⟩
  · next hquery =>
      rw [Text.before_append hpath, Text.behind_append hpath]
      exact ⟨rfl, rfl, iff_of_true (List.mem_append_right _ List.mem_cons_self) hquery⟩

/-- A target holds the path of the url with the segments behind it, a question mark
if and only if there is a query to follow it, and what the query of the url holds
before the parameters in their order. -/
theorem target_keeps (r : Request) (hsegments : ∀ s ∈ r.pathSegments, '?' ∉ s) :
    let path := Text.before '?' r.url
    let query := Text.behind '?' r.url
    (Text.before '?' r.target =
      if r.pathSegments = [] then path
      else path ++ (if path.getLast? = some '/' then [] else ['/']) ++
        Text.join ['/'] r.pathSegments) ∧
    ('?' ∈ r.target ↔ query ≠ [] ∨ r.param.entries ≠ []) ∧
    ((∀ entry ∈ r.param.entries, '&' ∉ entry.1 ∧ '&' ∉ entry.2) →
      queryPieces (Text.behind '?' r.target) =
        queryPieces query ++ r.param.entries.map paramPiece) := by
  intro path query
  obtain ⟨hbefore, hbehind, hmark⟩ := target_parts hsegments
  refine ⟨?_, ?_, fun hparam => ?_⟩
  · rw [hbefore, pathWith_eq]
  · rw [hmark, ne_eq, queryWith_eq_nil_iff, paramQuery_eq_nil_iff, not_and_or]
  · rw [hbehind, queryPieces_queryWith, queryPieces_paramQuery hparam]

/-- Empty segments, keys and values, a path with its slash, and a query that has
empty pieces, another question mark and an ampersand at its end. -/
theorem target_keeps_empty_parts :
    let r : Request := {
      name := []
      url := "http://h/?&a?b&&".toList
      param := ⟨[([], []), ("k?".toList, "/=".toList)], by decide⟩
      pathSegments := [[], "c/".toList] }
    (∀ s ∈ r.pathSegments, '?' ∉ s) ∧ (∀ entry ∈ r.param.entries, '&' ∉ entry.1 ∧ '&' ∉ entry.2) ∧
      r.target = "http://h//c/?&a?b&&=&k?=/=".toList ∧
      Text.before '?' r.target = "http://h//c/".toList ∧
      queryPieces (Text.behind '?' r.target) = ["a?b".toList, ['='], "k?=/=".toList] := by
  intro r
  have hsegments : ∀ s ∈ r.pathSegments, '?' ∉ s := by decide
  have hparam : ∀ entry ∈ r.param.entries, '&' ∉ entry.1 ∧ '&' ∉ entry.2 := by decide
  obtain ⟨hbefore, -, hpieces⟩ := target_keeps r hsegments
  exact ⟨hsegments, hparam, by decide, hbefore, hpieces hparam⟩

end Request

end RequestBook
