import RequestBook.Proofs.Services
import RequestBook.Proofs.Spelling

/-!
# Request lines have one form

A request line that can be read is brought into a form (`Canonical`): single
spaces, and a version in capitals that is always there. The words are all kept and
in their order, so nothing but spaces and the case of a version is lost, and the
form is read as itself.

What could break this is the last word. It is the url itself when there are two
words, a part of the url when there are more and it names no version, and the
version otherwise; and the url may have words that look like versions, even its
first one. But a version is put behind every url, so when the form is read there
are three words at least and the last one is the version, whatever stands before
it. The words of the url come back because they were joined with single spaces,
and a text that is joined so has no empty piece (`tidy_join`).
-/

namespace RequestBook

namespace Text

/-! ## Capitals of ASCII -/

/-- What holds of the first 128 code points holds of every character of ASCII. -/
theorem forall_ascii (p : Char → Prop) (h : ∀ n < 128, p (Char.ofNat n)) {c : Char}
    (hc : c.toNat < 128) : p c := by
  rw [← Char.ofNat_toNat c]
  exact h c.toNat hc

/-- The table of capitals begins with the letters of ASCII and has no other
character of ASCII in it. -/
theorem mapCase_upper_ascii {c : Char} (h : c.toNat < 128) :
    mapCase upperRuns upperTexts c = [c.toUpper] := by
  have hletters : ∀ n < 128, mapCase [⟨97, 122, 1, -32⟩] [] (Char.ofNat n) =
      [(Char.ofNat n).toUpper] := by
    decide +kernel
  have hruns : ∀ run ∈ upperRuns.tail, 128 ≤ run.first := by decide +kernel
  have htexts : ∀ entry ∈ upperTexts, 128 ≤ entry.1 := by decide +kernel
  have htext : upperTexts.lookup c.toNat = none := by
    rw [List.lookup_eq_none_iff]
    intro entry hentry
    have := htexts entry hentry
    rw [bne_iff_ne]
    omega
  have hrun : upperRuns.tail.find? (·.covers c.toNat) = none := by
    rw [List.find?_eq_none]
    intro run hrun
    have := hruns run hrun
    simp only [CaseRun.covers, Bool.and_eq_true, decide_eq_true_eq]
    omega
  have hhead : upperRuns = ⟨97, 122, 1, -32⟩ :: upperRuns.tail := rfl
  have hsame : mapCase upperRuns upperTexts c = mapCase [⟨97, 122, 1, -32⟩] [] c := by
    rw [mapCase, mapCase, htext, hhead, List.find?_cons, List.find?_cons, hrun]
    rfl
  rw [hsame]
  exact forall_ascii (fun c => mapCase [⟨97, 122, 1, -32⟩] [] c = [c.toUpper]) hletters h

theorem upper_ascii {t : Text} (h : ∀ c ∈ t, c.toNat < 128) : upper t = t.map Char.toUpper := by
  rw [upper, List.map_eq_flatMap]
  exact List.flatMap_congr fun c hc => mapCase_upper_ascii (h c hc)

theorem toUpper_ascii {c : Char} (h : c.toNat < 128) :
    c.toUpper.toNat < 128 ∧ c.toUpper.toUpper = c.toUpper ∧ (c.toUpper = ' ' → c = ' ') :=
  forall_ascii (fun c => c.toUpper.toNat < 128 ∧ c.toUpper.toUpper = c.toUpper ∧
    (c.toUpper = ' ' → c = ' ')) (by decide +kernel) h

/-! ## Separators that are not doubled -/

/-- A separator at either end of a text, and a doubled one, makes an empty
piece. -/
theorem nil_mem_fields {sep : Char} {t : Text}
    (h : t.head? = some sep ∨ t.getLast? = some sep ∨ [sep, sep] <:+: t) :
    [] ∈ fields sep t := by
  rcases h with hhead | hlast | ⟨before, after, rfl⟩
  · obtain ⟨rest, rfl⟩ := List.head?_eq_some_iff.mp hhead
    rw [fields_cons_self]
    exact List.mem_cons_self
  · obtain ⟨front, rfl⟩ := List.getLast?_eq_some_iff.mp hlast
    rw [fields_append]
    exact List.mem_append_right _ List.mem_cons_self
  · have hsplit : before ++ [sep, sep] ++ after = before ++ sep :: (sep :: after) := by simp
    rw [hsplit, fields_append, fields_cons_self]
    exact List.mem_append_right _ List.mem_cons_self

theorem trim_eq_self_of {t : Text} (hhead : ∀ c, t.head? = some c → isBlank c = false)
    (hlast : ∀ c, t.getLast? = some c → isBlank c = false) : trim t = t := by
  rw [trim, trimStart_eq_self_iff.mpr hhead, trimEnd_eq_self_iff.mpr hlast]

end Text

namespace RequestLine

/-- The line as it is written. -/
def text (line : RequestLine) : Text := line.method ++ ' ' :: (line.url ++ ' ' :: line.version)

/-- The words that a line was made from: those of its method and its url alone,
when no version stood behind them and the default one was supplied; or those and a
version, in whatever case it stood there. -/
inductive Holds (line : RequestLine) : List Text → Prop
  | supplied (hversion : line.version = defaultHttpVersion)
      (hlast : ∀ word ∈ (words line.url).tail.getLast?, isVersion word = false) :
      line.Holds (line.method :: words line.url)
  | written {word : Text} (hword : isVersion word = true)
      (hversion : line.version = word.map Char.toUpper) :
      line.Holds (line.method :: (words line.url ++ [word]))

/-- A line in the form to which all lines are brought, made from some words. -/
structure Canonical (words : List Text) (line : RequestLine) : Prop where
  method_first : words.head? = some line.method
  url_web : Request.webScheme <+: line.url
  url_head : line.url.head? ≠ some ' '
  url_last : line.url.getLast? ≠ some ' '
  url_spaces : ¬ [' ', ' '] <:+: line.url
  version_capitals : line.version.map Char.toUpper = line.version
  holds : line.Holds words
  again : read? line.text = some line

/-- A version that is left alone when it is read. -/
structure InCapitals (version : Text) : Prop where
  mark : isVersion version = true
  capitals : version.map Char.toUpper = version
  upper : Text.upper version = version
  word : ' ' ∉ version

/-! ## Words that are joined -/

section Words

/-- A word has no blank of any kind. -/
def IsWord (word : Text) : Prop := word ≠ [] ∧ ∀ c ∈ word, Text.isBlank c = false

variable {t word : Text} {ws : List Text}

theorem isWord_of_mem_words (hspaces : ∀ c ∈ t, Text.isBlank c = true → c = ' ')
    (h : word ∈ words t) : IsWord word := by
  obtain ⟨hsome, hspace⟩ := mem_words h
  refine ⟨hsome, fun c hc => ?_⟩
  rw [Bool.eq_false_iff]
  intro hblank
  have hmem := (Text.mem_fields (List.mem_filter.mp h).1).2 hc
  exact hspace (hspaces c hmem hblank ▸ hc)

theorem IsWord.space_not_mem (h : IsWord word) : ' ' ∉ word := fun hmem =>
  absurd (h.2 ' ' hmem) (by decide)

variable (hne : ws ≠ []) (h : ∀ word ∈ ws, IsWord word)
include hne h

theorem fields_join_words : Text.fields ' ' (Text.join [' '] ws) = ws :=
  Text.fields_join hne fun word hword => (h word hword).space_not_mem

theorem words_join : words (Text.join [' '] ws) = ws := by
  rw [words, fields_join_words hne h, List.filter_eq_self]
  intro word hword
  simpa using (h word hword).1

theorem tidy_join :
    (Text.join [' '] ws).head? ≠ some ' ' ∧ (Text.join [' '] ws).getLast? ≠ some ' ' ∧
      ¬ [' ', ' '] <:+: Text.join [' '] ws := by
  have hfull : [] ∉ Text.fields ' ' (Text.join [' '] ws) := by
    rw [fields_join_words hne h]
    exact fun hmem => (h [] hmem).1 rfl
  exact ⟨fun hhead => hfull (Text.nil_mem_fields (.inl hhead)),
    fun hlast => hfull (Text.nil_mem_fields (.inr (.inl hlast))),
    fun hpair => hfull (Text.nil_mem_fields (.inr (.inr hpair)))⟩

/-- Nothing is trimmed off words that are joined. -/
theorem urlOf_eq_join : urlOf ws = Text.join [' '] ws := by
  obtain ⟨hhead, hlast, -⟩ := tidy_join hne h
  have hspace : ∀ c ∈ Text.join [' '] ws, Text.isBlank c = true → c = ' ' := by
    intro c hc hblank
    rcases Text.mem_join hc with hspace | ⟨word, hword, hc⟩
    · exact List.mem_singleton.mp hspace
    · rw [(h word hword).2 c hc] at hblank
      cases hblank
  refine Text.trim_eq_self_of (fun c hc => ?_) fun c hc => ?_
  · rw [Bool.eq_false_iff]
    intro hblank
    exact hhead (hspace c (List.mem_of_head? hc) hblank ▸ hc)
  · rw [Bool.eq_false_iff]
    intro hblank
    exact hlast (hspace c (List.mem_of_getLast? hc) hblank ▸ hc)

end Words

/-! ## What is read -/

section Read

variable {t word method url : Text} {more : List Text} {line : RequestLine}

theorem read?_of_pair (h : words t = [method, url]) :
    read? t =
      if Request.webScheme <+: url then some ⟨method, url, defaultHttpVersion⟩ else none := by
  rw [read?, h]
  simp only [← Text.startsWith_iff, List.getLast?_nil]
  cases Text.startsWith Request.webScheme url <;> rfl

theorem read?_of_more {front : List Text} {last : Text}
    (h : words t = method :: url :: (front ++ [last])) :
    read? t =
      if Request.webScheme <+: url then
        if isVersion last = true then some ⟨method, urlOf (url :: front), Text.upper last⟩
        else some ⟨method, urlOf (url :: (front ++ [last])), defaultHttpVersion⟩
      else none := by
  rw [read?, h]
  simp only [← Text.startsWith_iff, List.getLast?_concat, List.dropLast_concat]
  cases Text.startsWith Request.webScheme url <;> rfl

theorem read?_eq_none_iff :
    read? t = none ↔ (words t).length < 2 ∨
      ∃ second, (words t)[1]? = some second ∧ ¬ Request.webScheme <+: second := by
  match hwords : words t with
  | [] => exact iff_of_true (by rw [read?, hwords]) (.inl (by decide))
  | [method] => exact iff_of_true (by rw [read?, hwords]) (.inl (by simp))
  | method :: url :: more =>
      have hmany : ¬ (method :: url :: more).length < 2 := by simp
      have hsecond : (method :: url :: more)[1]? = some url := rfl
      rw [or_iff_right hmany, hsecond]
      simp only [Option.some.injEq, exists_eq_left']
      rcases List.eq_nil_or_concat' more with rfl | ⟨front, last, rfl⟩
      · rw [read?_of_pair hwords]
        split <;> simp [*]
      · rw [read?_of_more hwords]
        split
        · split <;> simp [*]
        · simp [*]

/-- A line that was read has its words in one of two ways. -/
theorem parts_of_read? (hspaces : ∀ c ∈ t, Text.isBlank c = true → c = ' ')
    (h : read? t = some line) :
    ∃ ws, ws ≠ [] ∧ line.url = Text.join [' '] ws ∧
      ((words t = line.method :: ws ∧ line.version = defaultHttpVersion ∧
          ∀ word ∈ ws.tail.getLast?, isVersion word = false) ∨
        ∃ word, words t = line.method :: (ws ++ [word]) ∧ isVersion word = true ∧
          line.version = Text.upper word) := by
  have hword {word : Text} (h : word ∈ words t) : IsWord word := isWord_of_mem_words hspaces h
  match hwords : words t with
  | [] | [_] =>
      rw [read?, hwords] at h
      cases h
  | method :: url :: more =>
      rw [hwords] at hword
      rcases List.eq_nil_or_concat' more with rfl | ⟨front, last, rfl⟩
      · -- two words: the last one is the url, whatever it looks like
        rw [read?_of_pair hwords, Option.ite_none_right_eq_some] at h
        cases h.2
        refine ⟨[url], List.cons_ne_nil _ _, ?_, .inl ⟨rfl, rfl, by simp⟩⟩
        rw [Text.join, List.intercalate_singleton]
      · rw [read?_of_more hwords, Option.ite_none_right_eq_some] at h
        have hjoined : ∀ ws, ws ≠ [] → ws ⊆ url :: (front ++ [last]) →
            urlOf ws = Text.join [' '] ws := fun ws hne hkept =>
          urlOf_eq_join hne fun word hmem => hword (List.mem_cons_of_mem _ (hkept hmem))
        obtain ⟨-, h⟩ := h
        split at h
        · next hversion =>
            cases h
            refine ⟨url :: front, List.cons_ne_nil _ _, hjoined _ (List.cons_ne_nil _ _) ?_,
              .inr ⟨last, rfl, hversion, rfl⟩⟩
            exact List.cons_subset_cons _ (List.subset_append_left _ _)
        · next hversion =>
            cases h
            refine ⟨url :: (front ++ [last]), List.cons_ne_nil _ _,
              hjoined _ (List.cons_ne_nil _ _) (List.Subset.refl _),
              .inl ⟨rfl, rfl, fun word hmem => ?_⟩⟩
            rw [List.tail_cons, List.getLast?_concat, Option.mem_some] at hmem
            rw [← hmem, Bool.eq_false_iff]
            exact hversion

theorem inCapitals_default : InCapitals defaultHttpVersion :=
  ⟨by decide, by decide, by decide +kernel, by decide⟩

theorem inCapitals_upper (hversion : isVersion word = true) (hspace : ' ' ∉ word)
    (hascii : ∀ c ∈ word, c.toNat < 128) : InCapitals (Text.upper word) := by
  have hupper := Text.upper_ascii hascii
  have hstill : (Text.upper word).map Char.toUpper = Text.upper word := by
    rw [hupper, List.map_map]
    exact List.map_congr_left fun c hc => (Text.toUpper_ascii (hascii c hc)).2.1
  refine ⟨?_, hstill, ?_, fun hmem => ?_⟩
  · obtain ⟨rest, hrest⟩ := prefix_upper_of_isVersion hversion
    rw [← hrest]
    rfl
  · rw [Text.upper_ascii, hstill]
    intro c hc
    rw [hupper] at hc
    obtain ⟨d, hd, rfl⟩ := List.mem_map.mp hc
    exact (Text.toUpper_ascii (hascii d hd)).1
  · rw [hupper] at hmem
    obtain ⟨d, hd, hsame⟩ := List.mem_map.mp hmem
    exact hspace ((Text.toUpper_ascii (hascii d hd)).2.2 hsame ▸ hd)

/-- A line of words and a version in capitals is canonical for the words it holds. -/
theorem canonical_of_parts {ws held : List Text} (hne : ws ≠ [])
    (hws : ∀ word ∈ line.method :: ws, IsWord word) (hurl : line.url = Text.join [' '] ws)
    (hweb : Request.webScheme <+: line.url) (hversion : InCapitals line.version)
    (hfirst : held.head? = some line.method) (hheld : line.Holds held) : line.Canonical held := by
  obtain ⟨hmethod, hws⟩ := List.forall_mem_cons.mp hws
  obtain ⟨hhead, hlast, hpair⟩ := tidy_join hne hws
  have htrim : Text.trim (Text.join [' '] ws) = Text.join [' '] ws := urlOf_eq_join hne hws
  rw [← hurl] at hhead hlast hpair htrim
  have hagain := read?_of_tidy hmethod.space_not_mem hmethod.1 hweb htrim hpair hversion.mark
    hversion.word
  rw [hversion.upper] at hagain
  exact ⟨hfirst, hweb, hhead, hlast, hpair, hversion.capitals, hheld, hagain⟩

/-- The words of a text whose blanks are spaces are no request line if there are
fewer than two of them or the second is no url of the web. Otherwise they are
brought into a form that holds each of them and that is read as itself. -/
theorem read?_canonical (hspaces : ∀ c ∈ t, Text.isBlank c = true → c = ' ')
    (hascii : ∀ word ∈ (words t).getLast?, ∀ c ∈ word, c.toNat < 128) :
    (read? t = none ↔ (words t).length < 2 ∨
      ∃ second, (words t)[1]? = some second ∧ ¬ Request.webScheme <+: second) ∧
    ∀ line, read? t = some line → line.Canonical (words t) := by
  refine ⟨read?_eq_none_iff, fun line hline => ?_⟩
  have hweb := (whole_of_read? hline).url_web
  obtain ⟨ws, hne, hurl, hparts⟩ := parts_of_read? hspaces hline
  have hword {word : Text} (h : word ∈ words t) : IsWord word := isWord_of_mem_words hspaces h
  rcases hparts with ⟨hwords, hdefault, hlast⟩ | ⟨word, hwords, hversion, hupper⟩
  · rw [hwords] at hword ⊢
    have hheld : words line.url = ws := by
      rw [hurl, words_join hne fun word hmem => hword (List.mem_cons_of_mem _ hmem)]
    refine canonical_of_parts hne (fun _ => hword) hurl hweb
      (hdefault ▸ inCapitals_default) rfl ?_
    rw [← hheld] at hlast ⊢
    exact .supplied hdefault hlast
  · have hlast : (words t).getLast? = some word := by
      rw [hwords, ← List.cons_append, List.getLast?_concat]
    have hspace := (hword (List.mem_of_getLast? hlast)).space_not_mem
    have hcapitals := inCapitals_upper hversion hspace (hascii word hlast)
    rw [hwords, ← List.cons_append] at hword ⊢
    have hkept : ∀ word ∈ line.method :: ws, IsWord word := fun word hmem =>
      hword (List.mem_append_left _ hmem)
    have hheld : words line.url = ws := by
      rw [hurl, words_join hne fun word hmem => hkept word (List.mem_cons_of_mem _ hmem)]
    refine canonical_of_parts hne hkept hurl hweb (hupper ▸ hcapitals) rfl ?_
    rw [← hheld]
    exact .written hversion (hupper.trans (Text.upper_ascii (hascii word hlast)))

/-- Spaces everywhere, a url whose first word looks like a version, and a version
in mixed case. -/
theorem read?_canonical_version_like_url :
    let t := "  get http/2  b   hTTp/x ".toList
    let line : RequestLine := ⟨"get".toList, "http/2 b".toList, "HTTP/X".toList⟩
    (∀ c ∈ t, Text.isBlank c = true → c = ' ') ∧
      (∀ word ∈ (words t).getLast?, ∀ c ∈ word, c.toNat < 128) ∧
      read? t = some line ∧ line.Canonical (words t) ∧
      words t = ["get".toList, "http/2".toList, ['b'], "hTTp/x".toList] := by
  intro t line
  have hspaces : ∀ c ∈ t, Text.isBlank c = true → c = ' ' := by
    have hall : (t.all fun c => !Text.isBlank c || c == ' ') = true := by decide
    intro c hc hblank
    simpa [hblank] using List.all_eq_true.mp hall c hc
  have hwords : words t = ["get".toList, "http/2".toList, ['b'], "hTTp/x".toList] := by decide
  have hascii : ∀ word ∈ (words t).getLast?, ∀ c ∈ word, c.toNat < 128 := by
    have hall : ("hTTp/x".toList.all fun c => c.toNat < 128) = true := by decide
    rintro word hword c hc
    rw [hwords] at hword
    rw [← Option.some.inj hword] at hc
    simpa using List.all_eq_true.mp hall c hc
  have hread : read? t = some line := by decide +kernel
  exact ⟨hspaces, hascii, hread, (read?_canonical hspaces hascii).2 line hread, hwords⟩

end Read

end RequestLine

end RequestBook
